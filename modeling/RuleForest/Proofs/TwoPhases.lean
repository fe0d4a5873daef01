import RuleForest.Proofs.FoldingSteps
import RuleForest.Proofs.PaddedValues
import RuleForest.Proofs.ReadingCalls
import RuleForest.Proofs.SessionHistory

namespace RuleForest

/-- Folding nodes in order, each as it is folded alone, reaches all of them if
each has a value, and else those up to the first that has none. -/
def Scope.FoldsUpTo (scope : Scope) (nodes reached : List Node)
    (result : Except Fault (List Value)) : Prop :=
  (reached = nodes ∧ ∃ vs, result = .ok vs ∧
      List.Forall₂ (fun node v => (node.fold scope).result = .ok v) nodes vs) ∨
    ∃ before node after fault, nodes = before ++ node :: after ∧ reached = before ++ [node] ∧
      (∀ earlier ∈ before, ∃ v, (earlier.fold scope).result = .ok v) ∧
      (node.fold scope).result = .error fault ∧ result = .error fault

theorem Node.foldAll_upTo (scope : Scope) (nodes : List Node) :
    ∃ reached, scope.FoldsUpTo nodes reached (foldAll scope nodes).result ∧
      (foldAll scope nodes).events = reached.flatMap fun node => (node.fold scope).events := by
  cases run : (foldAll scope nodes).result with
  | ok vs =>
    obtain ⟨values, events⟩ := foldAll_of_ok run
    exact ⟨nodes, Or.inl ⟨rfl, vs, rfl, values⟩, events⟩
  | error fault =>
    obtain ⟨before, node, after, split, folded, failed, events⟩ := foldAll_of_error run
    exact ⟨before ++ [node],
      Or.inr ⟨before, node, after, fault, split, rfl, folded, failed, rfl⟩, events⟩

namespace Session

/-- The cursor after a whole stream is read is behind the last token. -/
theorem readForest_index {session : Session} {nodes : List Node}
    (run : session.readForest.2.result = .ok nodes) :
    session.readForest.1.index =
      if session.stream.tokens = [] then (-1 : Int) else (session.stream.tokens.length : Int) := by
  have same : session.stream.tokens = (Stream.placed session.stream.tokens 0).tokens :=
    (Stream.tokens_placed session.stream.tokens 0).symm
  unfold readForest at run ⊢
  rw [Stream.readForest_congr same] at run ⊢
  exact (Stream.readForest_partition run).1

/-- Folding a whole stream has two phases, and the cursor belongs to the first.
If a structure is not read, wherever it stands, then nothing is folded. If all
are read, then the log begins with what was logged for that, and the nodes that
are not plain tokens of ignored groups are folded in order, up to the first
that fails. -/
theorem values_two_phases (session : Session) :
    session.values.1 = session.readForest.1 ∧
    (∀ fault, session.readForest.2.result = .error fault →
      session.values.2.result = .error fault ∧
      session.values.2.log = session.readForest.2.log ∧
      session.values.2.calls = []) ∧
    ∀ nodes, session.readForest.2.result = .ok nodes →
      session.values.1.index =
        (if session.stream.tokens = [] then (-1 : Int) else (session.stream.tokens.length : Int)) ∧
      ∃ reached, session.scope.FoldsUpTo (session.frame.options.folded nodes) reached
          session.values.2.result ∧
        session.values.2.log = session.readForest.2.log ++
          reached.flatMap (fun node => (node.fold session.scope).log) ∧
        session.values.2.calls = reached.flatMap fun node => (node.fold session.scope).calls := by
  have phases : session.values.2 = session.readForest.2 >>= fun nodes =>
      Node.foldAll session.scope (session.frame.options.folded nodes) := rfl
  have silent : session.readForest.2.calls = [] := forest_calls _ _ _
  refine ⟨rfl, ?_, ?_⟩
  · intro fault run
    rw [phases, Traced.bind_of_error run]
    exact ⟨rfl, rfl, silent⟩
  · intro nodes run
    obtain ⟨reached, upTo, events⟩ :=
      Node.foldAll_upTo session.scope (session.frame.options.folded nodes)
    refine ⟨readForest_index run, reached, ?_, ?_, ?_⟩
    · rw [phases, Traced.bind_of_ok run]
      exact upTo
    · rw [phases, Traced.log_bind_of_ok run, Traced.log_of_events events]
    · rw [phases, Traced.calls_bind_of_ok run, silent, List.nil_append,
        Traced.calls_of_events events]

/-- The call `count()` in front of an array without its closer, and in front of
a space and an unbound variable. -/
theorem values_two_phases_of_count :
    let x : Token := ⟨.variable, .text "x", 7, 1⟩
    let call := Node.call { label := "NAME", text := "count", start := some 0, line := some 1 } []
    let session (rest : List Token) : Session :=
      start (.ofList (⟨.function, .text "count", 0, 1⟩ :: .bare .openParen :: .bare .closeParen :: rest))
        Functions.stock {}
    (session [.bare .openSquare]).values.2.calls = [] ∧
      (session [.bare .space, x]).values.1.index = 5 ∧
      ∃ reached, (⟨fun _ => none, Functions.stock⟩ : Scope).FoldsUpTo [call, .token x] reached
          (session [.bare .space, x]).values.2.result ∧
        (session [.bare .space, x]).values.2.calls =
          reached.flatMap fun node => (node.fold ⟨fun _ => none, Functions.stock⟩).calls := by
  intro x call session
  have counted (rest : List Token) : read .standard 0 ⟨.function, .text "count", 0, 1⟩
      (.bare .openParen :: .bare .closeParen :: rest) = ⟨2, ⟨[.call "count" 0 0], .ok call⟩⟩ := by
    have found : Shape.call.locate .standard 0 ⟨.function, .text "count", 0, 1⟩
        (.bare .openParen :: .bare .closeParen :: rest) = .ok ⟨1, []⟩ := rfl
    rw [@read_of_shape _ _ _ _ .call rfl, build_of_ok found, elements_nil (by simp)]
    rfl
  have opened : (forest .standard 0 [.bare .openSquare]).outcome.result =
      .error (.blame (.unterminated .array) (.bare .openSquare)) := by
    have missed : Shape.array.locate .standard 0 (.bare .openSquare) [] =
        .error ⟨1, .blame (.unterminated .array) (.bare .openSquare)⟩ := rfl
    rw [forest, @read_of_shape _ _ _ _ .array rfl, build_of_error missed]
    rfl
  have plain : (forest .standard 0 [.bare .space, x]).outcome.result =
      .ok [.token (.bare .space), .token x] := by
    rw [forest, read_of_plain rfl, List.drop_zero, forest, read_of_plain rfl, List.drop_zero, forest]
    rfl
  have broken : (session [.bare .openSquare]).readForest.2.result =
      .error (.blame (.unterminated .array) (.bare .openSquare)) := by
    change (forest .standard 0 (_ :: _)).outcome.result = _
    rw [forest, counted]
    exact Traced.result_bind_eq_error.mpr (Or.inr ⟨call, rfl,
      Traced.result_bind_eq_error.mpr (Or.inl opened)⟩)
  have whole : (session [.bare .space, x]).readForest.2.result =
      .ok [call, .token (.bare .space), .token x] := by
    change (forest .standard 0 (_ :: _)).outcome.result = _
    refine forest_cons (by rw [counted]) ?_
    rw [counted]
    exact plain
  obtain ⟨_, stopped, _⟩ := values_two_phases (session [.bare .openSquare])
  obtain ⟨_, _, folded⟩ := values_two_phases (session [.bare .space, x])
  obtain ⟨index, reached, upTo, _, calls⟩ := folded _ whole
  exact ⟨(stopped _ broken).2.2, index, reached, upTo, calls⟩

end Session

end RuleForest
