import RuleForest.Proofs.FoldingEnds

namespace RuleForest

/-- A token that holds a value. -/
def Node.holding (v : Value) (position line : Int) : Node :=
  .token ⟨.atom, v, position, line⟩

theorem Node.fold_holding (scope : Scope) (v : Value) (position line : Int) :
    (Node.holding v position line).fold scope = pure v := by
  rw [holding, fold]
  rfl

theorem Node.fold_variable {scope : Scope} {t : Token} {x : String} {v : Value}
    (variable_ : t.kind = .variable) (told : t.value.shown? = some x)
    (bound : scope.bindings x = some v) : (Node.token t).fold scope = pure v := by
  rw [fold, Token.fold_variable variable_ told, Scope.lookup, bound]

/-- A node in a value position that folds to a value may be replaced by a token
that holds the value. The folding of the whole has the same result and the
same log. Its invocations are the same but for those of the node, which come
in one piece behind the invocations of what is folded ahead of the node. They
do not come at all if that fails. In particular a variable may be replaced by
what it is bound to. -/
theorem Node.fold_replaced (scope : Scope) (levels : List Surrounding) (position line : Int) :
    (∀ (sub : Node) (v : Value), (sub.fold scope).result = .ok v →
      let whole := (sub.surrounded levels).fold scope
      let replaced := ((holding v position line).surrounded levels).fold scope
      let ahead := foldAhead scope levels
      replaced.result = whole.result ∧ replaced.log = whole.log ∧
      ((∃ fault, ahead.result = .error fault) →
        whole.calls = ahead.calls ∧ replaced.calls = ahead.calls) ∧
      (ahead.result = .ok () → ∃ later,
        whole.calls = ahead.calls ++ (sub.fold scope).calls ++ later ∧
        replaced.calls = ahead.calls ++ later)) ∧
    ∀ (t : Token) (x : String) (v : Value), t.kind = .variable → t.value.shown? = some x →
      scope.bindings x = some v →
      ((holding v position line).surrounded levels).fold scope =
        ((Node.token t).surrounded levels).fold scope := by
  obtain ⟨behind, factors⟩ := fold_surrounded scope levels
  constructor
  · intro sub v folded whole replaced ahead
    have silent : (sub.fold scope).log = [] := (sub.fold_ends scope).silent v folded
    have whole_eq : whole = ahead >>= fun _ => sub.fold scope >>= behind := factors sub
    have replaced_eq : replaced = ahead >>= fun _ => behind v := by
      rw [show replaced = ahead >>= fun _ => (holding v position line).fold scope >>= behind from
        factors _, fold_holding]
      rfl
    cases reached : ahead.result with
    | error fault =>
      have same : replaced = whole := by
        rw [whole_eq, replaced_eq, Traced.bind_of_error reached, Traced.bind_of_error reached]
      refine ⟨congrArg _ same, congrArg _ same, fun _ => ?_, nofun⟩
      rw [same, whole_eq, Traced.bind_of_error reached]
      exact ⟨rfl, rfl⟩
    | ok done =>
      refine ⟨?_, ?_, fun failed => ?_, fun _ => ⟨(behind v).calls, ?_, ?_⟩⟩
      · rw [whole_eq, replaced_eq, Traced.bind_of_ok reached, Traced.bind_of_ok reached,
          Traced.bind_of_ok folded]
      · rw [whole_eq, replaced_eq, Traced.log_bind_of_ok reached, Traced.log_bind_of_ok reached,
          Traced.log_bind_of_ok folded, silent, List.nil_append]
      · obtain ⟨_, failed⟩ := failed
        cases failed
      · rw [whole_eq, Traced.calls_bind_of_ok reached, Traced.calls_bind_of_ok folded,
          List.append_assoc]
      · rw [replaced_eq, Traced.calls_bind_of_ok reached]
  · intro t x v variable_ told bound
    rw [factors, factors, fold_holding, fold_variable variable_ told bound]

/-- The array in `list(null(), [count()], x, y)` is replaced by its value, though
the folding fails behind it, and where the name of the outer call is unknown. The
variable `x` is replaced as well. -/
theorem Node.fold_replaced_in_list :
    let named (name : String) : Leaf := { label := "NAME", text := name }
    let scope : Scope := ⟨fun name => if name = "x" then some .null else none, Functions.stock⟩
    let null := Node.call (named "null") []
    let counts := Node.array [.call (named "count") []]
    let x : Token := ⟨.variable, .text "x", 9, 1⟩
    let y : Node := .token ⟨.variable, .text "y", 12, 1⟩
    let among (name : String) : List Surrounding :=
      [.argument (.leaf (named name)) "args" [null] [.token x, y] []]
    let ones := holding (.list [.int 0]) 5 1
    ((ones.surrounded (among "list")).fold scope).result = .error (.undefinedVariable "y") ∧
      (∃ later, ((counts.surrounded (among "list")).fold scope).calls =
          [("null", [])] ++ [("count", [])] ++ later ∧
        ((ones.surrounded (among "list")).fold scope).calls = [("null", [])] ++ later) ∧
      ((counts.surrounded (among "?")).fold scope).calls = [] ∧
      ((holding .null 9 1).surrounded [.item [null] [y]]).fold scope =
        ((Node.token x).surrounded [.item [null] [y]]).fold scope := by
  intro named scope null counts x y among ones
  obtain ⟨result, _, _, calls⟩ := (fold_replaced scope (among "list") 5 1).1 counts (.list [.int 0]) rfl
  obtain ⟨_, _, unknown, _⟩ := (fold_replaced scope (among "?") 5 1).1 counts (.list [.int 0]) rfl
  exact ⟨result, calls rfl, (unknown ⟨_, rfl⟩).1,
    (fold_replaced scope [.item [null] [y]] 9 1).2 x "x" .null rfl rfl rfl⟩

end RuleForest
