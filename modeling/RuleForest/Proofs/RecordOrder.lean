import RuleForest.Proofs.RefusedToken
import RuleForest.Proofs.TraversalPartition

namespace RuleForest

/-- The structure that begins with the given token and has its content behind
place `c` of the tokens. -/
def Visit.start (tokens : List Token) (c : Nat) (shape : Shape) (depth : Int) (first : Token) : Visit :=
  ⟨c, shape, depth, first, tokens.drop (c + 1)⟩

section Places

variable {o : Options} {tokens back : List Token} {v w : Visit} {items : List Node} {b : Nat} {t : Token}
  {cause : Cause}

/-- A structure that is reached stands in the stream where the other one does. -/
theorem Visit.Reaches.behind (reaches : v.Reaches o w) (whole : tokens.drop (v.place + 1) = v.rest ++ back) :
    (∃ back, tokens.drop (w.place + 1) = w.rest ++ back) ∧
      (w = v ∨ v.place < w.place ∧ tokens[w.place]? = some w.first ∧
        w.first.kind.shape? = some w.shape) := by
  rcases reaches.split with rfl | ⟨begins, front, inner, split, place⟩
  · exact ⟨⟨back, whole⟩, Or.inl rfl⟩
  · have here : tokens.drop w.place = w.first :: (w.rest ++ (inner ++ back)) := by
      rw [place, ← List.drop_drop, whole, split, List.append_assoc, List.drop_left]
      simp
    refine ⟨⟨inner ++ back, Stream.drop_of_cons here 0⟩, Or.inr ⟨by omega, ?_, begins⟩⟩
    exact Stream.getElem?_of_cons here

/-- A structure that is read in full ends on its own closer in the stream. -/
theorem Visit.Returns.closerAt (returns : v.Returns o items)
    (whole : tokens.drop (v.place + 1) = v.rest ++ back) :
    ∃ b, v.shape.OpensAt o tokens v.place b ∧ v.shape.CloserAt tokens b (v.stop o) := by
  have same := build_append returns back
  have run : (build v.shape o v.depth v.first (tokens.drop (v.place + 1))).outcome.result =
      .ok (v.node items) := by
    rw [whole, same]
    exact returns
  have brackets := build_closerAt run
  rwa [whole, same] at brackets

theorem Visit.RefusesAt.atPlace (refuses : v.RefusesAt o b t cause)
    (whole : tokens.drop (v.place + 1) = v.rest ++ back) : tokens[b]? = some t := by
  obtain ⟨extent, located, before, behind, next, inner, _, _, _, rfl⟩ := refuses
  obtain ⟨_, lead, content, _, split, length, enclosing⟩ := Shape.locate_eq_ok_iff.mp located
  obtain ⟨closer, after, _, rfl, _⟩ := Shape.enclosed_split enclosing
  have here : tokens.drop (v.place + 1 + extent.lead + before.length) =
      t :: (behind ++ closer :: (after ++ back)) := by
    rw [Nat.add_assoc, ← List.drop_drop, whole, split, inner, length, ← List.length_append]
    have regroup : lead ++ (before ++ t :: behind ++ closer :: after) ++ back =
        (lead ++ before) ++ t :: (behind ++ closer :: (after ++ back)) := by simp
    rw [regroup, List.drop_left]
  exact Stream.getElem?_of_cons here

end Places

/-- Each finished structure has a log line. -/
theorem Visit.lines (finished : List (Visit × List Node)) :
    ((finished.map fun p => p.1.event p.2).filterMap Event.record?).map some =
      finished.map fun p => (p.1.event p.2).record? := by
  induction finished with
  | nil => rfl
  | cons p finished ih =>
    obtain ⟨line, logged⟩ : ∃ line, (p.1.event p.2).record? = some line := by
      unfold Visit.event
      cases p.1.shape <;> exact ⟨_, rfl⟩
    rw [List.map_cons, List.filterMap_cons_some logged, List.map_cons, ih, List.map_cons, logged]

namespace Stream

/-- The places at which reading all nodes from place `c` on begins one. It
begins the next one behind a node that is read, and none behind a fault. -/
inductive Starts (tokens : List Token) (o : Options) (depth : Int) : Nat → List Nat → Prop
  | done {c} : tokens.length ≤ c → Starts tokens o depth c []
  | last {c} : c < tokens.length → ((placed tokens c).readNode o depth).2.succeeds = false →
      Starts tokens o depth c [c]
  | next {c j starts} : c < tokens.length → ((placed tokens c).readNode o depth).2.succeeds = true →
      ((placed tokens c).readNode o depth).1.index = (j : Nat) → Starts tokens o depth (j + 1) starts →
      Starts tokens o depth c (c :: starts)

section Starts

variable {tokens rest : List Token} {o : Options} {depth : Int} {c : Nat} {t : Token}

/-- What is recorded of a forest is what is recorded of its nodes, one after
the other. -/
theorem forest_starts (behind : tokens.drop c = rest) : ∃ starts, Starts tokens o depth c starts ∧
    (forest o depth rest).outcome.events =
      starts.flatMap fun p => ((placed tokens p).readNode o depth).2.events := by
  induction rest using forest_induction o depth generalizing c with
  | nil =>
    refine ⟨[], .done (List.drop_eq_nil_iff.mp behind), ?_⟩
    rw [forest]
    rfl
  | node t rest ih =>
    have found := getElem?_of_cons behind
    have within : c < tokens.length := (List.getElem?_eq_some_iff.mp found).1
    have after : tokens.drop (c + 1) = rest := drop_of_cons behind 0
    have reading := readNode_placed found o depth
    rw [after] at reading
    rw [forest]
    cases run : (read o depth t rest).outcome.result with
    | error fault =>
      refine ⟨[c], .last within ?_, ?_⟩
      · rw [reading]
        simp only [Traced.succeeds, run]
      · rw [Traced.bind_of_error run, List.flatMap_singleton, reading]
    | ok node =>
      have far := (read_madeFrom run).1
      have length := congrArg List.length after
      rw [List.length_drop] at length
      obtain ⟨starts, further, events⟩ := ih (drop_of_cons behind (read o depth t rest).advances)
      refine ⟨c :: starts, @Starts.next _ _ _ _ (c + (read o depth t rest).advances) _ within ?_ ?_ ?_,
        ?_⟩
      · rw [reading]
        exact Traced.succeeds_iff.mpr ⟨node, run⟩
      · rw [reading]
        exact index_placed_of_le (by omega) (by omega)
      · rwa [Nat.add_right_comm]
      · rw [Traced.bind_of_ok run, Traced.bind_pure_mk, events, List.flatMap_cons, reading]

theorem Starts.within {starts : List Nat} (begins : Starts tokens o depth c starts) :
    ∀ p ∈ starts, p < tokens.length := by
  induction begins with
  | done => nofun
  | last within => simpa using within
  | next within _ _ _ ih => exact List.forall_mem_cons.mpr ⟨within, ih⟩

/-- Nothing is recorded of a node that is no structure. -/
theorem readNode_silent (found : tokens[c]? = some t) (other : t.kind.shape? = none) :
    ((placed tokens c).readNode o depth).2.events = [] := by
  rw [readNode_placed found]
  rcases t.cases_kind with string | ⟨nested, begins⟩ | plain
  · rw [read_of_string string]
    rfl
  · rw [other] at begins
    cases begins
  · rw [read_of_plain plain]
    rfl

end Starts

section Built

variable {tokens : List Token} {c : Nat} {shape : Shape} {o : Options} {depth : Int} {first t : Token}
  {cause : Cause}

theorem buildNode_start : ((placed tokens c).buildNode shape o depth first).2 =
    ((Visit.start tokens c shape depth first).reading o).outcome := by
  rw [buildNode_placed]
  rfl

/-- What is recorded before a list does not go on with a token is recorded
first when the tokens before that one are continued so that the structure is
read. -/
theorem buildNode_foretells (refusal : cause.isRefusal = true) (shallow : depth < o.maxDepth)
    (failed : ((placed tokens c).buildNode shape o depth first).2.result = .error (.blame cause t)) :
    ∃ v b, (Visit.start tokens c shape depth first).Reaches o v ∧ v.RefusesAt o b t cause ∧ c < b ∧
      tokens[b]? = some t ∧ ∀ more,
        ((placed (tokens.take b ++ more) c).buildNode shape o depth first).2.succeeds = true →
        ((placed tokens c).buildNode shape o depth first).2.events <+:
          ((placed (tokens.take b ++ more) c).buildNode shape o depth first).2.events := by
  rw [buildNode_start] at failed ⊢
  obtain ⟨v, b, reaches, refuses⟩ := Visit.Raises.refused shallow refusal failed
  obtain ⟨⟨back, behind⟩, _⟩ := reaches.behind (List.append_nil _).symm
  have found := refuses.atPlace behind
  obtain ⟨n, same, _, foretells⟩ := reaches.foretells refuses
  change b = c + 1 + n at same
  have within : b < tokens.length := (List.getElem?_eq_some_iff.mp found).1
  refine ⟨v, b, reaches, refuses, by omega, found, fun more succeeds => ?_⟩
  have part : (tokens.take b ++ more).drop (c + 1) = (tokens.drop (c + 1)).take n ++ more := by
    have length : b - (c + 1) = n := by rw [same, Nat.add_sub_cancel_left]
    rw [List.drop_append_of_le_length (by rw [List.length_take]; omega), List.drop_take, length]
  rw [buildNode_placed, part] at succeeds ⊢
  obtain ⟨node, done⟩ := Traced.succeeds_iff.mp succeeds
  exact foretells more _ node (congrArg (Traced.mk _) done)

end Built

/-- What reading a structure records. Each structure that it comes upon and
that is read in full is recorded once, in the order of the closers, with the
position of its first token and the number of its elements. If nothing is
wrong, these are the structures of the result, each behind those in it. A
structure that is not read in full is not recorded, and neither is one around
it. If a list in there does not go on with a token, and the tokens before it
can be continued so that the structure is read, this records the same first.
Reading all nodes records what reading the structures among them does. -/
theorem reading_records (tokens : List Token) (c : Nat) (shape : Shape) (o : Options) (depth : Int)
    (first : Token) :
    let root := Visit.start tokens c shape depth first
    let run := ((placed tokens c).buildNode shape o depth first).2
    let all := ((placed tokens c).readForest o depth).2
    (∃ finished, o.Records (root.Reaches o) c (root.stop o + 1) run Node.postorder finished ∧
      run.log.map some = finished.map (fun p => (p.1.event p.2).record?) ∧
      (∀ p ∈ finished, (p.1 = root ∨ c < p.1.place ∧ tokens[p.1.place]? = some p.1.first ∧
          p.1.first.kind.shape? = some p.1.shape) ∧
        ∃ b, p.1.shape.OpensAt o tokens p.1.place b ∧ p.1.shape.CloserAt tokens b (p.1.stop o)) ∧
      ∀ v w fault, v.Reaches o w → w.Raises o fault → ∀ items, (v, items) ∉ finished) ∧
    (∀ cause t, cause.isRefusal = true → depth < o.maxDepth → run.result = .error (.blame cause t) →
      ∃ v b, root.Reaches o v ∧ v.RefusesAt o b t cause ∧ c < b ∧ tokens[b]? = some t ∧
        ∀ more, let other := ((placed (tokens.take b ++ more) c).buildNode shape o depth first).2
          other.succeeds = true → run.events <+: other.events ∧ run.log <+: other.log) ∧
    ∃ starts, Starts tokens o depth 0 starts ∧
      all.events = starts.flatMap (fun p => ((placed tokens p).readNode o depth).2.events) ∧
      all.log = starts.flatMap (fun p => ((placed tokens p).readNode o depth).2.log) ∧
      ∀ p ∈ starts, ∃ t, tokens[p]? = some t ∧
        (t.kind.shape? = none → ((placed tokens p).readNode o depth).2.events = []) ∧
        ∀ nested, t.kind.shape? = some nested →
          (placed tokens p).readNode o depth = (placed tokens p).buildNode nested o depth t := by
  intro root run all
  have reading : run = (root.reading o).outcome := buildNode_start
  refine ⟨?_, fun cause t refusal shallow failed => ?_, ?_⟩
  · obtain ⟨finished, high, above, _, records⟩ :=
      root.records (o := o) fun extent _ => elements_records _ _ _ _ _
    rw [← reading] at records
    refine ⟨finished, records.congr (fun _ => Iff.rfl) (Nat.le_refl _) above, ?_, fun p member => ?_,
      fun v w fault reaches raises items member => ?_⟩
    · rw [Traced.log, records.recorded, Visit.lines]
    · obtain ⟨reaches, returns⟩ := (records.finishes.complete p.1 p.2).mp member
      obtain ⟨⟨back, behind⟩, place⟩ := reaches.behind (List.append_nil _).symm
      exact ⟨place, returns.closerAt behind⟩
    · have returns := ((records.finishes.complete v items).mp member).2
      have failed : (v.reading o).outcome.result = .error fault := reaches.raises raises
      rw [Visit.Returns, failed] at returns
      cases returns
  · obtain ⟨v, b, reaches, refuses, ahead, found, foretells⟩ :=
      buildNode_foretells refusal shallow failed
    refine ⟨v, b, reaches, refuses, ahead, found, ?_⟩
    intro more other succeeds
    exact ⟨foretells more succeeds, (foretells more succeeds).filterMap _⟩
  · obtain ⟨starts, begins, events⟩ := @forest_starts tokens tokens o depth 0 rfl
    have same : all = (forest o depth tokens).outcome :=
      congrArg Prod.snd (readForest_placed tokens c o depth)
    rw [← same] at events
    refine ⟨starts, begins, events, Traced.log_of_events events, fun p member => ?_⟩
    have found := List.getElem?_eq_getElem (begins.within p member)
    exact ⟨_, found, readNode_silent found, fun nested => readNode_of_shape found⟩

/-- An array in an array is recorded before the number behind it is blamed.
Without the number the outer array is recorded behind it. -/
theorem reading_records_of_arrays :
    ((placed [.bare .openSquare, .bare .openSquare, .bare .closeSquare, .bare .integer,
        .bare .closeSquare] 0).buildNode .array .standard 0 (.bare .openSquare)).2.events <+:
      ((placed [.bare .openSquare, .bare .openSquare, .bare .closeSquare, .bare .closeSquare]
        0).buildNode .array .standard 0 (.bare .openSquare)).2.events := by
  have inner (rest : List Token) : read .standard 1 (.bare .openSquare) (.bare .closeSquare :: rest) =
      ⟨1, [.array 0 0], .ok (.array [])⟩ := by
    rw [@read_of_shape _ _ _ _ .array rfl,
      @build_of_ok .array .standard 1 _ (.bare .closeSquare :: rest) ⟨0, []⟩ rfl, elements_nil (by simp)]
    rfl
  have failed : ((placed [.bare .openSquare, .bare .openSquare, .bare .closeSquare, .bare .integer,
      .bare .closeSquare] 0).buildNode .array .standard 0 (.bare .openSquare)).2.result =
        .error (.blame (.missingComma .array) (.bare .integer)) := by
    have located : Shape.array.locate .standard 0 (.bare .openSquare) [.bare .openSquare,
        .bare .closeSquare, .bare .integer, .bare .closeSquare] =
          .ok ⟨0, [.bare .openSquare, .bare .closeSquare, .bare .integer]⟩ := rfl
    refine (congrArg Traced.result (congrArg Reading.outcome (build_of_ok located))).trans ?_
    refine Shape.finish_eq_error_iff.mpr (Or.inl ?_)
    rw [Int.zero_add, elements_item rfl (by decide) rfl rfl, inner, List.drop_one, List.tail_cons,
      elements_missing rfl (by decide) rfl]
    rfl
  have succeeds : ((placed [.bare .openSquare, .bare .openSquare, .bare .closeSquare,
      .bare .closeSquare] 0).buildNode .array .standard 0 (.bare .openSquare)).2.succeeds = true := by
    have located : Shape.array.locate .standard 0 (.bare .openSquare) [.bare .openSquare,
        .bare .closeSquare, .bare .closeSquare] = .ok ⟨0, [.bare .openSquare, .bare .closeSquare]⟩ := rfl
    refine (congrArg Traced.succeeds (congrArg Reading.outcome (build_of_ok located))).trans ?_
    rw [Int.zero_add, elements_item rfl (by decide) rfl rfl, inner, List.drop_one, List.tail_cons,
      elements_nil (by simp)]
    rfl
  obtain ⟨_, blamed, _⟩ := reading_records [.bare .openSquare, .bare .openSquare, .bare .closeSquare,
    .bare .integer, .bare .closeSquare] 0 .array .standard 0 (.bare .openSquare)
  obtain ⟨v, b, _, _, _, found, same⟩ := blamed _ _ rfl (by decide) failed
  have only : ∀ b < 5, [Token.bare .openSquare, .bare .openSquare, .bare .closeSquare, .bare .integer,
      .bare .closeSquare][b]? = some (.bare .integer) → b = 3 := by decide
  obtain rfl : b = 3 := only b (List.getElem?_eq_some_iff.mp found).1 found
  exact (same [.bare .closeSquare] succeeds).1

end Stream

end RuleForest
