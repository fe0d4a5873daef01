import RuleForest.Session
import RuleForest.Proofs.DepthLimit
import RuleForest.Proofs.PaddedReading

namespace RuleForest

/-- The places at which reading a whole stream comes to a node. Behind a node
that is not read it comes to no further one. -/
inductive NodeAt (o : Options) (depth : Int) : List Token → Nat → Prop
  | first {t rest} : NodeAt o depth (t :: rest) 0
  | later {t rest i} : (read o depth t rest).outcome.succeeds = true →
      NodeAt o depth (rest.drop (read o depth t rest).advances) i →
      NodeAt o depth (t :: rest) (1 + ((read o depth t rest).advances + i))

/-- The nodes of a forest that are folded. -/
def Options.folded (o : Options) (nodes : List Node) : List Node :=
  nodes.filter fun node => !node.isIgnored o

theorem Options.folded_cons (o : Options) (node : Node) (nodes : List Node) :
    o.folded (node :: nodes) = o.folded [node] ++ o.folded nodes :=
  List.filter_append [node] nodes

section Forest

variable {o : Options} {depth : Int} {t : Token} {tokens rest padded : List Token} {k : Nat → Nat}

/-- The folded nodes of a forest are those of its first node and of the rest. -/
theorem folded_forest_cons (o : Options) (depth : Int) (t : Token) (rest : List Token) :
    o.folded <$> (forest o depth (t :: rest)).outcome =
      (read o depth t rest).outcome >>= fun node => (o.folded [node] ++ ·) <$>
        (o.folded <$> (forest o depth (rest.drop (read o depth t rest).advances)).outcome) := by
  rw [forest, map_bind]
  refine Traced.bind_congr fun node _ => ?_
  rw [bind_pure_comp, Functor.map_map, Functor.map_map]
  exact congrArg (· <$> _) (funext fun nodes => o.folded_cons node nodes)

/-- Padding that reading a whole stream does not take for nodes of its own
makes no difference to the nodes that are folded, to a fault, or to what is
logged. Between the nodes it leaves plain tokens of ignored groups. -/
theorem forest_padded (pads : o.Padded tokens padded k)
    (own : ∀ i t, NodeAt o depth padded i → padded[i]? = some t → t.isComposite = true →
      ∃ j, i = k j) :
    o.folded <$> (forest o depth padded).outcome = o.folded <$> (forest o depth tokens).outcome := by
  induction padded using forest_induction o depth generalizing tokens k with
  | nil =>
    cases pads
    rfl
  | node t rest ih =>
    cases pads with
    | @pad _ _ places _ padding pads =>
      have plain : t.isComposite = false := by
        refine Bool.eq_false_iff.mpr fun composite => ?_
        obtain ⟨j, place⟩ := own 0 t .first rfl composite
        exact absurd place (Nat.ne_of_lt (Nat.lt_add_right _ Nat.zero_lt_one))
      have alone := @read_of_plain o depth t rest plain
      have same : o.folded <$> (forest o depth rest).outcome =
          o.folded <$> (forest o depth tokens).outcome := by
        rw [alone] at ih
        refine ih pads fun i u node found composite => ?_
        have deeper : NodeAt o depth (t :: rest) (1 + ((read o depth t rest).advances + i)) := by
          refine .later ?_ ?_ <;> rw [alone]
          · rfl
          · exact node
        rw [alone, Nat.zero_add] at deeper
        obtain ⟨j, place⟩ := own (1 + i) u deeper (by rwa [Nat.add_comm]) composite
        exact ⟨j, Nat.add_left_cancel place⟩
      have ignored : o.folded [.token t] = [] :=
        List.filter_cons_of_neg (by simp [Node.isIgnored, padding.ignored])
      rw [folded_forest_cons, alone, pure_bind, ignored, ← same]
      exact id_map _
    | @keep tokens _ places _ pads =>
      obtain ⟨same, moves⟩ := @Options.Padded.read o depth t _ _ _ pads
        fun _ _ _ _ _ _ content => elements_padded content
      obtain ⟨further, behind, back⟩ := pads.drop moves
      rw [folded_forest_cons, folded_forest_cons, ← same]
      refine Traced.bind_congr fun node done => congrArg _ (ih behind fun i u deeper found composite => ?_)
      have reached : NodeAt o depth (t :: rest) (1 + ((read o depth t rest).advances + i)) :=
        .later (Traced.succeeds_iff.mpr ⟨node, done⟩) deeper
      have atPlace : (t :: rest)[1 + ((read o depth t rest).advances + i)]? = some u := by
        rw [Nat.add_comm, List.getElem?_cons_succ, ← List.getElem?_drop, found]
      obtain ⟨j, place⟩ := own _ u reached atPlace composite
      cases j with
      | zero => simp [placesBehind] at place
      | succ j => exact back i j (Nat.add_left_cancel place)

end Forest

/-- Padding anywhere in a stream changes neither the values that the stream
folds to nor a fault, neither what is logged nor what is invoked, as long as
no padding is itself read as a literal or as the beginning of a call. That
can happen only between the nodes, where tokens are read before those of
ignored groups are dropped. -/
theorem Session.values_padded (session : Session) {padded : List Token} {k : Nat → Nat}
    (pads : session.frame.options.Padded session.stream.tokens padded k)
    (own : ∀ i t, NodeAt session.frame.options session.frame.depth padded i →
      padded[i]? = some t → t.isComposite = true → ∃ j, i = k j) (index : Int) :
    (session.withStream ⟨padded, index⟩).values.2 = session.values.2 := by
  have folds (tokens : List Token) (index : Int) :
      (session.withStream ⟨tokens, index⟩).values.2 =
        (session.frame.options.folded <$>
          (forest session.frame.options session.frame.depth tokens).outcome) >>=
            Node.foldAll session.scope :=
    (bind_map_left session.frame.options.folded _ _).symm
  calc (session.withStream ⟨padded, index⟩).values.2
    _ = (session.frame.options.folded <$>
          (forest session.frame.options session.frame.depth padded).outcome) >>=
            Node.foldAll session.scope := folds padded index
    _ = (session.frame.options.folded <$>
          (forest session.frame.options session.frame.depth session.stream.tokens).outcome) >>=
            Node.foldAll session.scope := by rw [forest_padded pads own]
    _ = session.values.2 := (folds session.stream.tokens session.stream.index).symm

/-- A comment in front of an array, and a literal of an ignored group in it. -/
theorem Session.values_padded_array :
    (start ⟨[.bare .comment, .bare .openSquare, .bare .string, .bare .closeSquare], 0⟩
      (fun _ => none) { options := .ignoring [.comment, .string] 64 }).values.2 =
    (start ⟨[.bare .openSquare, .bare .closeSquare], 0⟩
      (fun _ => none) { options := .ignoring [.comment, .string] 64 }).values.2 := by
  let o : Options := .ignoring [.comment, .string] 64
  have comment : o.Pads (.bare .comment) := ⟨rfl, by decide⟩
  have literal : o.Pads (.bare .string) := ⟨rfl, by decide⟩
  have alone (rest : List Token) : read o 0 (.bare .comment) rest =
      ⟨0, pure (.token (.bare .comment))⟩ := read_of_plain rfl
  have located : Shape.array.locate o 0 (.bare .openSquare) [.bare .string, .bare .closeSquare] =
      .ok ⟨0, [.bare .string]⟩ := rfl
  have pads : o.Padded [.bare .openSquare, .bare .closeSquare]
      [.bare .comment, .bare .openSquare, .bare .string, .bare .closeSquare] _ :=
    .pad comment (.keep _ (.pad literal (.keep _ .nil)))
  refine values_padded (start ⟨[.bare .openSquare, .bare .closeSquare], 0⟩ (fun _ => none)
    { options := o }) pads (fun i t node found composite => ?_) 0
  -- The traversal comes to the comment, to the array, and to the end.
  change NodeAt o 0 _ i at node
  cases node with
  | first =>
    cases found
    cases composite
  | later _ node =>
    rw [alone] at node ⊢
    cases node with
    | first => exact ⟨0, rfl⟩
    | later _ node =>
      rw [@read_of_shape _ _ _ _ .array rfl, build_of_ok located] at node
      cases node

/-- A literal of an ignored group that stands alone is folded all the same,
so that such padding between the nodes is not dropped. -/
theorem Session.values_of_ignored_literal :
    (Options.ignoring [.string] 64).Padded [] [⟨.string, .text "'a'", 0, 1⟩] (fun i => 1 + i) ∧
    (start (.ofList []) (fun _ => none) { options := .ignoring [.string] 64 }).values.2.result =
      .ok [] ∧
    (start (.ofList [⟨.string, .text "'a'", 0, 1⟩]) (fun _ => none)
      { options := .ignoring [.string] 64 }).values.2.result = .ok [.text "a"] := by
  have empty : (forest (.ignoring [.string] 64) 0 []).outcome.result = .ok [] := by
    rw [forest]
    rfl
  have literal : read (.ignoring [.string] 64) 0 ⟨.string, .text "'a'", 0, 1⟩ [] =
      ⟨0, pure (.leaf ⟨"STRING", "a", some 0, some 1, some 3⟩)⟩ := by
    rw [read_of_string rfl]
    rfl
  refine ⟨.pad ⟨rfl, by decide⟩ .nil, ?_, ?_⟩
  · exact Traced.result_bind_eq_ok.mpr ⟨[], empty, rfl⟩
  · have single : (forest (.ignoring [.string] 64) 0 [⟨.string, .text "'a'", 0, 1⟩]).outcome.result =
        .ok [.leaf ⟨"STRING", "a", some 0, some 1, some 3⟩] := by
      refine forest_cons (congrArg (·.outcome.result) literal) ?_
      rwa [literal]
    exact Traced.result_bind_eq_ok.mpr ⟨_, single, rfl⟩

end RuleForest
