import RuleForest.Proofs.SlicedReading
import RuleForest.Proofs.VisitedStructures

namespace RuleForest

mutual

/-- The arrays and calls in a node, each behind those in it. -/
def Node.postorder : Node → List Node
  | .token _ | .leaf _ => []
  | .tree label children =>
    if Shape.isLabel label then postorderAll children ++ [.tree label children]
    else postorderAll children

def Node.postorderAll : List Node → List Node
  | [] => []
  | node :: rest => node.postorder ++ postorderAll rest

end

theorem Node.postorder_node (shape : Shape) (first : Token) (items : List Node) :
    (shape.node first items).postorder = postorderAll items ++ [shape.node first items] := by
  cases shape with
  | array => rw [Shape.node, array, postorder, if_pos (by decide)]
  | call =>
    have args : (Node.tree argsLabel items).postorder = postorderAll items := by
      rw [postorder, if_neg (by decide)]
    rw [Shape.node, call, postorder, if_pos (by decide), postorderAll, postorderAll, postorderAll,
      args, postorder, List.nil_append, List.append_nil]

/-- Those of the reached structures that are read in full, each with its
elements, in the order of the places where they end. These places lie within
the given bounds. -/
structure Options.Finishes (o : Options) (reached : Visit → Prop) (low high : Nat)
    (finished : List (Visit × List Node)) : Prop where
  complete : ∀ w items, (w, items) ∈ finished ↔ reached w ∧ w.Returns o items
  ordered : finished.Pairwise fun p q => p.1.stop o < q.1.stop o
  within : ∀ p ∈ finished, low ≤ p.1.stop o ∧ p.1.stop o < high

/-- A run leaves one record for each of them, in their order. Its result, if
it has one, consists of them. -/
structure Options.Records {α : Type} (o : Options) (reached : Visit → Prop) (low high : Nat)
    (run : Traced α) (structures : α → List Node) (finished : List (Visit × List Node)) : Prop where
  finishes : o.Finishes reached low high finished
  recorded : run.events = finished.map fun p => p.1.event p.2
  listed : ∀ a, run.result = .ok a → finished.map (fun p => p.1.node p.2) = structures a

/-- The structures that reading a list comes upon, on all levels. -/
def Slot.Reaches (o : Options) (depth : Int) (slot : Slot) (base : Nat) (tokens : List Token)
    (w : Visit) : Prop :=
  ∃ u, slot.Meets o depth base tokens u ∧ u.Reaches o w

section Finishes

variable {o : Options} {reached other : Visit → Prop} {low mid high : Nat}
  {finished more : List (Visit × List Node)} {v : Visit} {items : List Node}

theorem Options.Finishes.none (never : ∀ w items, reached w → ¬ w.Returns o items) (low high : Nat) :
    o.Finishes reached low high [] where
  complete w items := by
    refine ⟨nofun, ?_⟩
    rintro ⟨here, returns⟩
    exact absurd returns (never w items here)
  ordered := .nil
  within := nofun

theorem Options.Finishes.single (returns : v.Returns o items) :
    o.Finishes (· = v) (v.stop o) (v.stop o + 1) [(v, items)] where
  complete w others := by
    rw [List.mem_singleton, Prod.mk.injEq]
    constructor
    · rintro ⟨rfl, rfl⟩
      exact ⟨rfl, returns⟩
    · rintro ⟨rfl, again⟩
      exact ⟨rfl, again.unique returns⟩
  ordered := List.pairwise_singleton _ _
  within p member := by
    rw [List.mem_singleton.mp member]
    exact ⟨Nat.le_refl _, Nat.lt_succ_self _⟩

/-- What ends in a part of the stream is finished before what ends behind it. -/
theorem Options.Finishes.append (first : o.Finishes reached low mid finished)
    (second : o.Finishes other mid high more) (lower : low ≤ mid) (upper : mid ≤ high) :
    o.Finishes (fun w => reached w ∨ other w) low high (finished ++ more) where
  complete w items := by rw [List.mem_append, first.complete, second.complete, or_and_right]
  ordered := by
    refine List.pairwise_append.mpr ⟨first.ordered, second.ordered, fun p left q right => ?_⟩
    have before := (first.within p left).2
    have behind := (second.within q right).1
    omega
  within p member := by
    rcases List.mem_append.mp member with left | right
    · have bounds := first.within p left
      omega
    · have bounds := second.within p right
      omega

theorem Options.Finishes.congr (finishes : o.Finishes reached low high finished)
    (same : ∀ w items, w.Returns o items → (other w ↔ reached w)) : o.Finishes other low high finished where
  complete w items := by
    rw [finishes.complete, and_congr_left_iff]
    exact fun returns => (same w items returns).symm
  ordered := finishes.ordered
  within := finishes.within

theorem Options.Finishes.widen {lower higher : Nat} (finishes : o.Finishes reached low high finished)
    (below : lower ≤ low) (above : high ≤ higher) : o.Finishes reached lower higher finished where
  complete := finishes.complete
  ordered := finishes.ordered
  within p member := by
    have bounds := finishes.within p member
    omega

end Finishes

section Records

variable {α : Type} {o : Options} {reached other : Visit → Prop} {low high base : Nat} {v w : Visit}
  {run : Traced α} {structures : α → List Node} {depth : Int} {slot : Slot} {t : Token}
  {rest : List Token} {extent : Extent}

theorem Options.Records.none (never : ∀ w, ¬ reached w) (silent : run.events = [])
    (empty : ∀ a, run.result = .ok a → structures a = []) :
    o.Records reached low high run structures [] where
  finishes := .none (fun w _ here => absurd here (never w)) low high
  recorded := silent
  listed a made := (empty a made).symm

theorem Options.Records.congr {lower higher : Nat} {finished : List (Visit × List Node)}
    (records : o.Records reached low high run structures finished)
    (same : ∀ w, other w ↔ reached w) (below : lower ≤ low) (above : high ≤ higher) :
    o.Records other lower higher run structures finished where
  finishes := (records.finishes.congr fun w _ _ => same w).widen below above
  recorded := records.recorded
  listed := records.listed

theorem Visit.stop_of_located (located : v.shape.locate o v.depth v.first v.rest = .ok extent) :
    v.stop o = v.place + 1 + extent.lead + extent.inner.length ∧
      v.stop o ≤ v.place + v.rest.length := by
  obtain ⟨lead, closer, after, _, _, whole, advances, _⟩ := Shape.locate_split located
  have length := congrArg List.length whole
  rw [List.length_append, List.length_cons] at length
  rw [stop, reading, build_of_ok located]
  refine ⟨?_, ?_⟩
  · simp only [Extent.advances]
    omega
  · simp only [advances, length]
    omega

theorem Visit.reaches_of_located (located : v.shape.locate o v.depth v.first v.rest = .ok extent) :
    v.Reaches o w ↔
      Slot.first.Reaches o (v.depth + 1) (v.place + 1 + extent.lead) extent.inner w ∨ w = v := by
  rw [Visit.reaches_iff, or_comm]
  simp only [Visit.Meets, located, Except.ok.injEq, exists_eq_left', Slot.Reaches]

theorem Visit.finishes_of_error {stop : Stop}
    (missed : v.shape.locate o v.depth v.first v.rest = .error stop) :
    o.Finishes (v.Reaches o) v.place v.place [] := by
  refine .none (fun w items reaches returns => ?_) _ _
  rcases Visit.reaches_iff.mp reaches with rfl | ⟨u, ⟨extent, found, _⟩, _⟩
  · rw [Returns, reading, build_of_error missed] at returns
    cases returns
  · rw [missed] at found
    cases found

section Located

variable {fault : Fault} {items : List Node} {finished : List (Visit × List Node)}
  (located : v.shape.locate o v.depth v.first v.rest = .ok extent)
  (content : o.Finishes
    (Slot.first.Reaches o (v.depth + 1) (v.place + 1 + extent.lead) extent.inner)
    (v.place + 1 + extent.lead) (v.place + 1 + extent.lead + extent.inner.length) finished)

include located content

theorem Visit.Raises.finishes (raises : v.Raises o fault) :
    o.Finishes (v.Reaches o) v.place (v.stop o + 1) finished := by
  have stop := (Visit.stop_of_located located).1
  refine (content.congr fun w items returns => ?_).widen (by omega) (by omega)
  rw [Visit.reaches_of_located located, or_iff_left]
  rintro rfl
  exact nomatch raises.symm.trans returns

theorem Visit.Returns.finishes (returns : v.Returns o items) :
    o.Finishes (v.Reaches o) v.place (v.stop o + 1) (finished ++ [(v, items)]) := by
  have stop := (Visit.stop_of_located located).1
  rw [← stop] at content
  refine ((content.append (.single returns) (by omega) (Nat.le_succ _)).congr fun w items _ => ?_).widen
    (by omega) (Nat.le_refl _)
  exact Visit.reaches_of_located located

end Located

/-- What is recorded of a structure: first that of its content, and then the
structure itself if nothing is wrong with it or with its name. -/
theorem Visit.records (v : Visit)
    (contents : ∀ extent, v.shape.locate o v.depth v.first v.rest = .ok extent → ∃ finished,
      o.Records (Slot.first.Reaches o (v.depth + 1) (v.place + 1 + extent.lead) extent.inner)
        (v.place + 1 + extent.lead) (v.place + 1 + extent.lead + extent.inner.length)
        (elements v.shape o (v.depth + 1) .first extent.inner) Node.postorderAll finished) :
    ∃ finished high, high ≤ v.stop o + 1 ∧ high ≤ v.place + v.rest.length + 1 ∧
      o.Records (v.Reaches o) v.place high (v.reading o).outcome Node.postorder finished := by
  cases located : v.shape.locate o v.depth v.first v.rest with
  | error stop =>
    have failed : v.reading o = ⟨stop.advances, .fail stop.fault⟩ := build_of_error located
    refine ⟨[], v.place, ?_, by omega, Visit.finishes_of_error located, ?_, ?_⟩
    · rw [Visit.stop]
      omega
    · rw [failed]
      rfl
    · intro node made
      rw [failed] at made
      cases made
  | ok extent =>
    obtain ⟨finished, content⟩ := contents extent located
    have within := (Visit.stop_of_located located).2
    have done : v.reading o = ⟨extent.advances,
        v.shape.finish v.first (elements v.shape o (v.depth + 1) .first extent.inner)⟩ :=
      build_of_ok located
    cases run : elements v.shape o (v.depth + 1) .first extent.inner with
    | mk events result =>
      rw [run] at content done
      cases result with
      | error fault =>
        have raises : v.Raises o fault := by
          rw [Raises, done]
          rfl
        refine ⟨finished, v.stop o + 1, Nat.le_refl _, Nat.succ_le_succ within,
          raises.finishes located content.finishes, ?_, ?_⟩
        · rw [done]
          exact content.recorded
        · intro node made
          rw [done] at made
          cases made
      | ok items =>
        cases named : v.shape.isNamed v.first with
        | false =>
          rw [Shape.finish_of_unnamed named] at done
          have raises : v.Raises o .unwritable := by
            rw [Raises, done]
          refine ⟨finished, v.stop o + 1, Nat.le_refl _, Nat.succ_le_succ within,
            raises.finishes located content.finishes, ?_, ?_⟩
          · rw [done]
            exact content.recorded
          · intro node made
            rw [done] at made
            cases made
        | true =>
          rw [Shape.finish_of_named named] at done
          have returns : v.Returns o items := by
            rw [Returns, done]
            rfl
          refine ⟨finished ++ [(v, items)], v.stop o + 1, Nat.le_refl _, Nat.succ_le_succ within,
            returns.finishes located content.finishes, ?_, ?_⟩
          · rw [done, List.map_append, ← content.recorded]
            rfl
          · intro node made
            rw [done] at made
            cases made
            rw [List.map_append, content.listed items rfl, Node.postorder_node]
            rfl

/-- The structures that reading at a token comes upon: the one that begins
there, and those in it. -/
def Token.Reaches (o : Options) (depth : Int) (base : Nat) (t : Token) (rest : List Token)
    (w : Visit) : Prop :=
  ∃ nested, t.kind.shape? = some nested ∧ (Visit.mk base nested depth t rest).Reaches o w

theorem read_records
    (inside : ∀ nested extent, t.kind.shape? = some nested → nested.locate o depth t rest = .ok extent →
      ∀ base, ∃ finished, o.Records (Slot.first.Reaches o (depth + 1) base extent.inner) base
        (base + extent.inner.length) (elements nested o (depth + 1) .first extent.inner)
        Node.postorderAll finished) (base : Nat) :
    ∃ finished high, high ≤ base + (read o depth t rest).advances + 1 ∧
      high ≤ base + rest.length + 1 ∧
      o.Records (t.Reaches o depth base rest) base high (read o depth t rest).outcome Node.postorder
        finished := by
  rcases t.cases_kind with string | ⟨nested, begins⟩ | plain
  · refine ⟨[], base, by omega, by omega, .none ?_ ?_ ?_⟩
    · rintro w ⟨nested, begins, _⟩
      rw [string] at begins
      cases begins
    · rw [read_of_string string]
      rfl
    · rw [read_of_string string]
      cases StringLiteral.leaf t with
      | error fault => nofun
      | ok leaf =>
        rintro _ ⟨⟩
        rfl
  · obtain ⟨finished, high, stop, length, records⟩ :=
      Visit.records ⟨base, nested, depth, t, rest⟩ fun extent located =>
        inside nested extent begins located (base + 1 + extent.lead)
    rw [read_of_shape begins]
    refine ⟨finished, high, stop, length, records.congr (fun w => ?_) (Nat.le_refl _) (Nat.le_refl _)⟩
    simp only [Token.Reaches, begins, Option.some.injEq, exists_eq_left']
  · refine ⟨[], base, by omega, by omega, .none ?_ ?_ ?_⟩
    · rintro w ⟨nested, begins, _⟩
      rw [Token.shape?_of_plain plain] at begins
      cases begins
    · rw [read_of_plain plain]
      rfl
    · rw [read_of_plain plain]
      rintro _ ⟨⟩
      rfl

theorem Slot.reaches_item_iff (seen : o.ignores t.group = false) (comma : t.kind ≠ .comma)
    (starts : t.kind.startsElement = true) (free : slot.isFilled = false) :
    slot.Reaches o depth base (t :: rest) w ↔
      t.Reaches o depth base rest w ∨ ∃ node, (read o depth t rest).outcome.result = .ok node ∧
        Slot.filled.Reaches o depth (base + 1 + (read o depth t rest).advances)
          (rest.drop (read o depth t rest).advances) w := by
  constructor
  · rintro ⟨u, meets, reaches⟩
    obtain ⟨_, _, ⟨nested, begins, rfl⟩ | ⟨node, run, behind⟩⟩ := meets.of_item seen comma
    · exact Or.inl ⟨nested, begins, reaches⟩
    · exact Or.inr ⟨node, run, u, behind, reaches⟩
  · rintro (⟨nested, begins, reaches⟩ | ⟨node, run, u, behind, reaches⟩)
    · exact ⟨_, .here free seen begins, reaches⟩
    · exact ⟨u, .behind free seen starts run behind, reaches⟩

/-- No tokens are read as no elements, if they are read. -/
theorem elements_nil_empty (shape : Shape) (o : Options) (depth : Int) (slot : Slot) :
    (elements shape o depth slot []).events = [] ∧
      ∀ nodes, (elements shape o depth slot []).result = .ok nodes → nodes = [] := by
  cases slot with
  | after comma =>
    rw [elements_nil_after]
    exact ⟨rfl, nofun⟩
  | first =>
    rw [elements_nil (by simp)]
    exact ⟨rfl, fun nodes made => (Except.ok.inj made).symm⟩
  | filled =>
    rw [elements_nil (by simp)]
    exact ⟨rfl, fun nodes made => (Except.ok.inj made).symm⟩

/-- The records of an element, and of the elements behind it if it is read. -/
theorem Options.Records.item {finished : List (Visit × List Node)}
    (first : o.Records (t.Reaches o depth base rest) base high (read o depth t rest).outcome
      Node.postorder finished) (shape : Shape) (seen : o.ignores t.group = false)
    (comma : t.kind ≠ .comma) (starts : t.kind.startsElement = true) (free : slot.isFilled = false)
    (stop : high ≤ base + (read o depth t rest).advances + 1) (length : high ≤ base + rest.length + 1)
    (later : ∃ more, o.Records
      (Slot.filled.Reaches o depth (base + 1 + (read o depth t rest).advances)
        (rest.drop (read o depth t rest).advances))
      (base + 1 + (read o depth t rest).advances)
      (base + 1 + (read o depth t rest).advances + (rest.drop (read o depth t rest).advances).length)
      (elements shape o depth .filled (rest.drop (read o depth t rest).advances)) Node.postorderAll more) :
    ∃ finished, o.Records (slot.Reaches o depth base (t :: rest)) base (base + (t :: rest).length)
      (elements shape o depth slot (t :: rest)) Node.postorderAll finished := by
  have reaches (w : Visit) :=
    @Slot.reaches_item_iff o base w depth slot t rest seen comma starts free
  rw [elements_item seen comma starts free, List.length_cons]
  cases run : (read o depth t rest).outcome.result with
  | error fault =>
    rw [Traced.bind_of_error run]
    refine ⟨finished, ?_, first.recorded, nofun⟩
    refine (first.finishes.congr fun w _ _ => ?_).widen (Nat.le_refl _) (by omega)
    rw [reaches, or_iff_left]
    rintro ⟨node, made, _⟩
    rw [run] at made
    cases made
  | ok node =>
    have far : (read o depth t rest).advances ≤ rest.length := by
      obtain ⟨element, after, rfl, _, length⟩ := Slot.Passes.of_read free seen starts run
      rw [length, List.length_append]
      exact Nat.le_add_right _ _
    obtain ⟨more, second⟩ := later
    rw [List.length_drop] at second
    -- The element is over before the later ones begin, so its structures end before theirs.
    have both := (first.finishes.widen (Nat.le_refl base) stop).append
      (second.finishes.widen (by omega) (Nat.le_refl _)) (by omega) (by omega)
    rw [Traced.bind_of_ok run]
    refine ⟨finished ++ more, ?_, ?_, fun nodes made => ?_⟩
    · refine (both.congr fun w _ _ => ?_).widen (Nat.le_refl _) (by omega)
      rw [reaches, run]
      simp only [Except.ok.injEq, exists_eq_left']
    · rw [List.map_append, ← first.recorded, ← second.recorded, Traced.bind_pure_mk]
    · obtain ⟨others, behind, same⟩ := Traced.result_bind_eq_ok.mp made
      cases same
      rw [List.map_append, first.listed node run, second.listed others behind, Node.postorderAll]

/-- What is recorded of a list is what is recorded of its elements, one
after the other. -/
theorem elements_records (shape : Shape) (depth : Int) (slot : Slot) (tokens : List Token)
    (base : Nat) : ∃ finished, o.Records (slot.Reaches o depth base tokens) base
      (base + tokens.length) (elements shape o depth slot tokens) Node.postorderAll finished := by
  induction shape, depth, slot, tokens using elements_induction o generalizing base with
  | nil shape depth slot =>
    obtain ⟨silent, empty⟩ := elements_nil_empty shape o depth slot
    refine ⟨[], .none ?_ silent fun nodes made => ?_⟩
    · rintro w ⟨u, meets, _⟩
      exact absurd meets Slot.not_meets_nil
    · rw [empty nodes made]
      rfl
  | skip shape depth slot t rest ignored ih =>
    obtain ⟨finished, records⟩ := ih (base + 1)
    rw [elements_skip ignored]
    refine ⟨finished, records.congr (fun w => ?_) (Nat.le_succ _) ?_⟩
    · simp only [Slot.Reaches, Slot.meets_skip_iff ignored]
    · rw [List.length_cons]
      omega
  | comma shape depth slot t rest seen comma ih =>
    obtain ⟨finished, records⟩ := ih (base + 1)
    rw [elements_comma seen comma]
    have meets (w : Visit) := @Slot.meets_comma_iff o depth slot base t rest w seen comma
    cases filled : slot.isFilled with
    | true =>
      cases slot <;> simp only [Slot.isFilled, reduceCtorEq] at filled
      refine ⟨finished, records.congr (fun w => ?_) (Nat.le_succ _) ?_⟩
      · simp only [Slot.Reaches, meets, true_and]
      · rw [List.length_cons]
        omega
    | false =>
      refine ⟨[], .none ?_ rfl nofun⟩
      rintro w ⟨u, here, _⟩
      obtain ⟨rfl, _⟩ := (meets u).mp here
      cases filled
  | unexpected shape depth slot t rest seen comma starts =>
    rw [elements_unexpected seen comma starts]
    refine ⟨[], .none ?_ rfl nofun⟩
    rintro w ⟨u, meets, _⟩
    have begun := (meets.of_item seen comma).2.1
    rw [starts] at begun
    cases begun
  | missing shape depth t rest seen comma starts =>
    rw [elements_missing seen comma starts]
    refine ⟨[], .none ?_ rfl nofun⟩
    rintro w ⟨u, meets, _⟩
    cases (meets.of_item seen comma).1
  | item shape depth slot t rest seen comma starts free inside ih =>
    obtain ⟨finished, high, stop, length, first⟩ := read_records inside base
    exact first.item shape seen comma starts free stop length (ih _)

end Records

end RuleForest
