import Mathlib.Logic.Relation
import RuleForest.Proofs.DerivedReading

namespace RuleForest

/-- Reading a list gets over these tokens, and takes it from one slot to
another. -/
inductive Slot.Passes (o : Options) (depth : Int) : Slot → List Token → Slot → Prop
  | nil {slot} : Passes o depth slot [] slot
  | skip {slot t rest next} : o.ignores t.group = true → Passes o depth slot rest next →
      Passes o depth slot (t :: rest) next
  | comma {t rest next} : o.ignores t.group = false → t.kind = .comma →
      Passes o depth (.after t) rest next → Passes o depth .filled (t :: rest) next
  | item {slot element node rest next} : slot.isFilled = false → Element o depth element node →
      Passes o depth .filled rest next → Passes o depth slot (element ++ rest) next

/-- A structure that reading comes upon: the place of its first token in the
stream, its depth, and the tokens that it is read from. -/
structure Visit where
  place : Nat
  shape : Shape
  depth : Int
  first : Token
  rest : List Token
deriving DecidableEq, Repr

namespace Visit

def reading (o : Options) (v : Visit) : Reading Node :=
  build v.shape o v.depth v.first v.rest

/-- The place that reading the structure leaves the cursor on. -/
def stop (o : Options) (v : Visit) : Nat :=
  v.place + (v.reading o).advances

def node (v : Visit) (items : List Node) : Node :=
  v.shape.node v.first items

/-- The structure is read in full, and these are its elements. -/
def Returns (o : Options) (v : Visit) (items : List Node) : Prop :=
  (v.reading o).outcome.result = .ok (v.node items)

def Raises (o : Options) (v : Visit) (fault : Fault) : Prop :=
  (v.reading o).outcome.result = .error fault

/-- What a finished structure is recorded as. -/
def event (v : Visit) (items : List Node) : Event :=
  v.shape.event v.first items.length

end Visit

/-- Reading a list of tokens, the first of which stands at `base`, comes upon
a structure that is an element of the list or would be one. -/
def Slot.Meets (o : Options) (depth : Int) (slot : Slot) (base : Nat) (tokens : List Token)
    (w : Visit) : Prop :=
  ∃ before next, tokens = before ++ w.first :: w.rest ∧ slot.Passes o depth before next ∧
    next.isFilled = false ∧ o.ignores w.first.group = false ∧
    w.first.kind.shape? = some w.shape ∧ w.place = base + before.length ∧ w.depth = depth

/-- Reading one structure comes upon another one in its content. -/
def Visit.Meets (o : Options) (v w : Visit) : Prop :=
  ∃ extent, v.shape.locate o v.depth v.first v.rest = .ok extent ∧
    Slot.first.Meets o (v.depth + 1) (v.place + 1 + extent.lead) extent.inner w

/-- The other one is the structure itself, or it is come upon in there after
some levels. -/
def Visit.Reaches (o : Options) : Visit → Visit → Prop :=
  Relation.ReflTransGen (Visit.Meets o)

theorem Traced.bind_pure_mk {α β : Type} (run : Traced α) (f : α → β) :
    (run >>= fun a => pure (f a)) = ⟨run.events, run.result.map f⟩ := by
  rcases run with ⟨events, fault | a⟩
  · rfl
  · rw [mk_ok_bind, pure_eq, List.append_nil]
    rfl

section Elements

variable {o : Options} {depth : Int} {shape nested : Shape} {t : Token} {rest element : List Token}
  {node : Node}

theorem Shape.node_inj {xs ys : List Node} (same : shape.node t xs = shape.node t ys) : xs = ys := by
  cases shape <;> simpa [node, Node.array, Node.call] using same

/-- A structure that is read in full does not see what stands behind it. -/
theorem build_append (run : (build shape o depth t rest).outcome.result = .ok node)
    (more : List Token) : build shape o depth t (rest ++ more) = build shape o depth t rest := by
  obtain ⟨extent, nodes, located, _, _⟩ := build_eq_ok_iff.mp run
  obtain ⟨lead, closer, after, _, _, rfl, _, exchange⟩ := Shape.locate_split located
  rw [List.append_assoc, List.cons_append, build_of_ok located, build_of_ok (exchange (after ++ more))]

theorem read_append (run : (read o depth t rest).outcome.result = .ok node) (more : List Token) :
    read o depth t (rest ++ more) = read o depth t rest := by
  rcases t.cases_kind with string | ⟨nested, begins⟩ | plain
  · rw [read_of_string string, read_of_string string]
  · rw [read_of_shape begins] at run
    rw [read_of_shape begins, read_of_shape begins, build_append run]
  · rw [read_of_plain plain, read_of_plain plain]

/-- The first token of an element, which is read in the same way with
anything behind the element. -/
theorem Element.read_eq (element : Element o depth rest node) :
    ∃ t first events, rest = t :: first ∧ o.ignores t.group = false ∧ t.kind ≠ .comma ∧
      t.kind.startsElement = true ∧
      ∀ after, RuleForest.read o depth t (first ++ after) = ⟨first.length, events, .ok node⟩ := by
  obtain ⟨t, first, rfl, reads⟩ := element.read
  have alone := reads.result []
  have length := reads.advances []
  rw [List.append_nil] at alone length
  refine ⟨t, first, (RuleForest.read o depth t first).outcome.events, rfl, reads.seen, reads.comma,
    reads.starts, fun after => ?_⟩
  rw [read_append alone, ← length, ← alone]

end Elements

section Passes

variable {o : Options} {depth : Int} {slot next : Slot} {t : Token} {rest passed : List Token}

/-- What stands before the elements behind these tokens does not matter to
them, and is read in the same way whatever they are. -/
theorem Slot.Passes.elements (passes : slot.Passes o depth passed next) :
    ∃ events items, ∀ shape rest, RuleForest.elements shape o depth slot (passed ++ rest) =
      ⟨events ++ (RuleForest.elements shape o depth next rest).events,
        (RuleForest.elements shape o depth next rest).result.map (items ++ ·)⟩ := by
  induction passes with
  | nil =>
    refine ⟨[], [], fun shape rest => ?_⟩
    rw [List.nil_append]
    cases RuleForest.elements shape o depth _ rest with
    | mk events result => cases result <;> rfl
  | skip ignored _ ih =>
    obtain ⟨events, items, same⟩ := ih
    refine ⟨events, items, fun shape rest => ?_⟩
    rw [List.cons_append, elements_skip ignored, same]
  | comma seen comma _ ih =>
    obtain ⟨events, items, same⟩ := ih
    refine ⟨events, items, fun shape rest => ?_⟩
    rw [List.cons_append, elements_comma seen comma, if_pos (by rfl), same]
  | @item slot element node _ _ free derived _ ih =>
    obtain ⟨t, first, own, rfl, seen, comma, starts, reads⟩ := derived.read_eq
    obtain ⟨events, items, same⟩ := ih
    refine ⟨own ++ events, node :: items, fun shape rest => ?_⟩
    rw [List.append_assoc, List.cons_append, elements_item seen comma starts free, reads,
      List.drop_left, same, Traced.mk_ok_bind, Traced.bind_pure_mk, ← List.append_assoc]
    cases (RuleForest.elements shape o depth _ rest).result <;> rfl

theorem Slot.Passes.append {last : Slot} {more : List Token} (first : slot.Passes o depth passed next)
    (second : next.Passes o depth more last) : slot.Passes o depth (passed ++ more) last := by
  induction first with
  | nil => exact second
  | skip ignored _ ih => exact .skip ignored (ih second)
  | comma seen comma _ ih => exact .comma seen comma (ih second)
  | item free element _ ih =>
    rw [List.append_assoc]
    exact .item free element (ih second)

/-- What is read without fault from a token on is got over as an element. -/
theorem Slot.Passes.of_read {node : Node} (free : slot.isFilled = false)
    (seen : o.ignores t.group = false) (starts : t.kind.startsElement = true)
    (run : (read o depth t rest).outcome.result = .ok node) :
    ∃ first after, rest = first ++ after ∧ slot.Passes o depth (t :: first) .filled ∧
      (read o depth t rest).advances = first.length := by
  have element := Element.of_contents seen starts
    (fun _ _ _ _ _ content => elements_derives content) run
  have passes := Slot.Passes.item free element .nil
  rw [List.append_nil] at passes
  refine ⟨_, rest.drop (read o depth t rest).advances, (List.take_append_drop _ rest).symm, passes, ?_⟩
  obtain ⟨u, first, events, same, _, _, _, reads⟩ := element.read_eq
  obtain ⟨rfl, taken⟩ := List.cons.inj same
  have whole := reads (rest.drop (read o depth t rest).advances)
  rw [← taken, List.take_append_drop] at whole
  exact congrArg Reading.advances whole

theorem Slot.passes_nil_iff : slot.Passes o depth [] next ↔ next = slot := by
  constructor
  · intro passes
    generalize none : ([] : List Token) = passed at passes
    cases passes with
    | nil => rfl
    | skip => cases none
    | comma => cases none
    | item _ element _ =>
      obtain ⟨t, first, _, rfl, _⟩ := element.read_eq
      cases none
  · rintro rfl
    exact .nil

/-- How a first token is got over: it is passed over, it is a comma behind an
element, or an element begins with it. -/
theorem Slot.Passes.cases_cons (passes : slot.Passes o depth (t :: rest) next) :
    (o.ignores t.group = true ∧ slot.Passes o depth rest next) ∨
      (o.ignores t.group = false ∧ t.kind = .comma ∧ slot = .filled ∧
        (Slot.after t).Passes o depth rest next) ∨
      (o.ignores t.group = false ∧ t.kind ≠ .comma ∧ slot.isFilled = false ∧
        t.kind.startsElement = true ∧ ∃ first later events node, rest = first ++ later ∧
          Slot.filled.Passes o depth later next ∧
          ∀ after, read o depth t (first ++ after) = ⟨first.length, events, .ok node⟩) := by
  generalize whole : t :: rest = tokens at passes
  cases passes with
  | nil => cases whole
  | skip ignored passes =>
    cases whole
    exact Or.inl ⟨ignored, passes⟩
  | comma seen comma passes =>
    cases whole
    exact Or.inr (Or.inl ⟨seen, comma, rfl, passes⟩)
  | @item _ _ node later _ free element passes =>
    obtain ⟨u, first, events, rfl, seen, comma, starts, reads⟩ := element.read_eq
    cases whole
    exact Or.inr (Or.inr ⟨seen, comma, free, starts, first, later, events, node, rfl, passes, reads⟩)

theorem Slot.passes_skip_iff (ignored : o.ignores t.group = true) :
    slot.Passes o depth (t :: rest) next ↔ slot.Passes o depth rest next := by
  refine ⟨fun passes => ?_, .skip ignored⟩
  rcases passes.cases_cons with ⟨_, passes⟩ | ⟨seen, _⟩ | ⟨seen, _⟩
  · exact passes
  · exact absurd (ignored.symm.trans seen) nofun
  · exact absurd (ignored.symm.trans seen) nofun

theorem Slot.passes_comma_iff (seen : o.ignores t.group = false) (comma : t.kind = .comma) :
    slot.Passes o depth (t :: rest) next ↔
      slot = .filled ∧ (Slot.after t).Passes o depth rest next := by
  constructor
  · intro passes
    rcases passes.cases_cons with ⟨ignored, _⟩ | ⟨_, _, behind⟩ | ⟨_, other, _⟩
    · exact absurd (ignored.symm.trans seen) nofun
    · exact behind
    · exact absurd comma other
  · rintro ⟨rfl, passes⟩
    exact .comma seen comma passes

end Passes

section Meets

variable {o : Options} {depth : Int} {slot : Slot} {base : Nat} {t : Token}
  {rest : List Token} {w : Visit}

theorem Slot.not_meets_nil : ¬ slot.Meets o depth base [] w := by
  rintro ⟨before, next, whole, _⟩
  simp at whole

/-- Tokens that reading gets over do not matter to what is met behind them. -/
theorem Slot.Passes.meets {passed : List Token} {next : Slot} (passes : slot.Passes o depth passed next)
    (meets : next.Meets o depth (base + passed.length) rest w) :
    slot.Meets o depth base (passed ++ rest) w := by
  obtain ⟨before, last, rfl, further, free, seen, begins, place, same⟩ := meets
  refine ⟨passed ++ before, last, (List.append_assoc ..).symm, passes.append further, free, seen,
    begins, ?_, same⟩
  rw [place, List.length_append, Nat.add_assoc]

/-- What is met behind a first token that no structure begins with. -/
theorem Slot.Meets.of_other (other : o.ignores t.group = true ∨ t.kind.shape? = none)
    (meets : slot.Meets o depth base (t :: rest) w) :
    ∃ before next, rest = before ++ w.first :: w.rest ∧ slot.Passes o depth (t :: before) next ∧
      next.isFilled = false ∧ o.ignores w.first.group = false ∧
      w.first.kind.shape? = some w.shape ∧ w.place = base + 1 + before.length ∧ w.depth = depth := by
  obtain ⟨before, next, whole, passes, free, seen, begins, place, same⟩ := meets
  cases before with
  | nil =>
    cases whole
    rcases other with ignored | other
    · rw [ignored] at seen
      cases seen
    · rw [other] at begins
      cases begins
  | cons u before =>
    cases whole
    refine ⟨before, next, rfl, passes, free, seen, begins, ?_, same⟩
    rw [place, List.length_cons]
    omega

theorem Slot.meets_skip_iff (ignored : o.ignores t.group = true) :
    slot.Meets o depth base (t :: rest) w ↔ slot.Meets o depth (base + 1) rest w := by
  constructor
  · intro meets
    obtain ⟨before, next, whole, passes, further⟩ := meets.of_other (Or.inl ignored)
    exact ⟨before, next, whole, (passes_skip_iff ignored).mp passes, further⟩
  · exact (Slot.Passes.skip ignored .nil).meets

theorem Slot.meets_comma_iff (seen : o.ignores t.group = false) (comma : t.kind = .comma) :
    slot.Meets o depth base (t :: rest) w ↔
      slot = .filled ∧ (Slot.after t).Meets o depth (base + 1) rest w := by
  constructor
  · intro meets
    obtain ⟨before, next, whole, passes, further⟩ := meets.of_other (Or.inr (by rw [comma]; rfl))
    obtain ⟨filled, passes⟩ := (passes_comma_iff seen comma).mp passes
    exact ⟨filled, before, next, whole, passes, further⟩
  · rintro ⟨rfl, meets⟩
    exact (Slot.Passes.comma seen comma .nil).meets meets

/-- What is met from a token on that is neither passed over nor a comma: the
structure that begins with it, or one behind the element that it begins. -/
theorem Slot.Meets.of_item (seen : o.ignores t.group = false) (comma : t.kind ≠ .comma)
    (meets : slot.Meets o depth base (t :: rest) w) :
    slot.isFilled = false ∧ t.kind.startsElement = true ∧
      ((∃ nested, t.kind.shape? = some nested ∧ w = ⟨base, nested, depth, t, rest⟩) ∨
        ∃ node, (read o depth t rest).outcome.result = .ok node ∧
          Slot.filled.Meets o depth (base + 1 + (read o depth t rest).advances)
            (rest.drop (read o depth t rest).advances) w) := by
  obtain ⟨before, next, whole, passes, free, visible, begins, place, same⟩ := meets
  cases before with
  | nil =>
    obtain ⟨rfl, rfl⟩ := List.cons.inj whole
    rw [passes_nil_iff] at passes
    rw [List.length_nil, Nat.add_zero] at place
    subst passes same place
    exact ⟨free, (Kind.starts_of_shape? begins).2, Or.inl ⟨w.shape, begins, rfl⟩⟩
  | cons u before =>
    rw [List.cons_append] at whole
    obtain ⟨rfl, rfl⟩ := List.cons.inj whole
    rcases passes.cases_cons with ⟨ignored, _⟩ | ⟨_, other, _⟩ |
      ⟨_, _, begun, starts, first, later, events, node, rfl, behind, reads⟩
    · exact absurd (ignored.symm.trans seen) nofun
    · exact absurd other comma
    · refine ⟨begun, starts, Or.inr ⟨node, ?_⟩⟩
      rw [List.append_assoc, reads]
      refine ⟨rfl, later, next, List.drop_left, behind, free, visible, begins, ?_, same⟩
      simp only [place, List.length_cons, List.length_append]
      omega

theorem Slot.Meets.here {nested : Shape} (free : slot.isFilled = false)
    (seen : o.ignores t.group = false) (begins : t.kind.shape? = some nested) :
    slot.Meets o depth base (t :: rest) ⟨base, nested, depth, t, rest⟩ :=
  ⟨[], slot, rfl, .nil, free, seen, begins, rfl, rfl⟩

theorem Slot.Meets.behind {node : Node} (free : slot.isFilled = false)
    (seen : o.ignores t.group = false) (starts : t.kind.startsElement = true)
    (run : (read o depth t rest).outcome.result = .ok node)
    (meets : Slot.filled.Meets o depth (base + 1 + (read o depth t rest).advances)
      (rest.drop (read o depth t rest).advances) w) :
    slot.Meets o depth base (t :: rest) w := by
  obtain ⟨first, after, rfl, passes, length⟩ := Slot.Passes.of_read free seen starts run
  rw [length, List.drop_left] at meets
  refine passes.meets ?_
  rwa [List.length_cons, Nat.add_comm first.length, ← Nat.add_assoc]

end Meets

section Reaches

variable {o : Options} {v w : Visit} {items xs ys : List Node} {fault : Fault}

/-- The tokens of a structure that is met stand in those of the other one,
with its closer behind them. -/
theorem Visit.Meets.split (meets : v.Meets o w) :
    w.first.kind.shape? = some w.shape ∧ ∃ front closer back,
      v.rest = front ++ w.first :: (w.rest ++ closer :: back) ∧ w.place = v.place + 1 + front.length := by
  obtain ⟨extent, located, before, next, whole, _, _, _, begins, place, _⟩ := meets
  obtain ⟨_, lead, content, _, split, length, enclosing⟩ := Shape.locate_eq_ok_iff.mp located
  obtain ⟨closer, after, _, rfl, _⟩ := Shape.enclosed_split enclosing
  refine ⟨begins, lead ++ before, closer, after, ?_, ?_⟩
  · rw [split, whole]
    simp
  · rw [place, length, List.length_append]
    omega

theorem Visit.reaches_iff :
    v.Reaches o w ↔ w = v ∨ ∃ u, v.Meets o u ∧ u.Reaches o w := by
  rw [Reaches, Relation.ReflTransGen.cases_head_iff, eq_comm]

/-- A structure that is reached stands in the same stream. -/
theorem Visit.Reaches.split (reaches : v.Reaches o w) :
    w = v ∨ w.first.kind.shape? = some w.shape ∧ ∃ front back,
      v.rest = front ++ w.first :: (w.rest ++ back) ∧ w.place = v.place + 1 + front.length := by
  induction reaches with
  | refl => exact Or.inl rfl
  | @tail u w _ meets ih =>
    obtain ⟨begins, front, closer, back, inner, place⟩ := meets.split
    refine Or.inr ⟨begins, ?_⟩
    rcases ih with rfl | ⟨_, outer, behind, whole, far⟩
    · exact ⟨front, closer :: back, inner, place⟩
    · refine ⟨outer ++ u.first :: front, closer :: (back ++ behind), ?_, ?_⟩
      · rw [whole, inner]
        simp
      · rw [place, far, List.length_append, List.length_cons]
        omega

theorem Visit.Returns.unique (first : v.Returns o xs) (second : v.Returns o ys) : xs = ys :=
  Shape.node_inj (Except.ok.inj (first.symm.trans second))

/-- A structure that is met and not read in full keeps the other one from
being read in full, with the same fault. -/
theorem Visit.Meets.raises (meets : v.Meets o w) (raises : w.Raises o fault) : v.Raises o fault := by
  obtain ⟨extent, located, before, next, whole, passes, free, seen, begins, _, same⟩ := meets
  obtain ⟨comma, starts⟩ := Kind.starts_of_shape? begins
  obtain ⟨events, items, reads⟩ := passes.elements
  have failed : (read o (v.depth + 1) w.first w.rest).outcome.result = .error fault := by
    rw [read_of_shape begins, ← same]
    exact raises
  rw [Raises, reading, build_of_ok located, whole]
  refine Shape.finish_eq_error_iff.mpr (Or.inl ?_)
  rw [reads, elements_item seen comma starts free, Traced.bind_of_error failed]
  rfl

theorem Visit.Reaches.raises (reaches : v.Reaches o w) (raises : w.Raises o fault) :
    v.Raises o fault := by
  induction reaches using Relation.ReflTransGen.head_induction_on with
  | refl => exact raises
  | head meets _ ih => exact meets.raises ih

end Reaches

end RuleForest
