import RuleForest.Proofs.ValuePositions

namespace RuleForest

/-- A fault that is not about a name. -/
def Fault.Unnamed (fault : Fault) : Prop :=
  (∀ x, fault ≠ .undefinedVariable x) ∧ ∀ f, fault ≠ .undefinedFunction f

/-- The function that was invoked last failed with this fault. -/
def Scope.Raises (scope : Scope) (calls : List (String × List Value)) (fault : Fault) : Prop :=
  ∃ name f args, scope.functions name = some f ∧ calls.getLast? = some (name, args) ∧
    f args = .error fault

/-- Why folding a node stops, told by the log and the invocations up to there.
Only an unbound variable leaves something in the log. -/
inductive Scope.Stops (scope : Scope) (node : Node) (log : List String)
    (calls : List (String × List Value)) : Fault → Prop
  | unbound {x} : x ∈ node.variableNames → scope.bindings x = none →
      log = ["ruletree.ast:DEBUG:lookup of undefined variable " ++ quoted x] →
      Stops scope node log calls (.undefinedVariable x)
  | undefined {f} : f ∈ node.functionNames → scope.functions f = none → log = [] →
      Stops scope node log calls (.undefinedFunction f)
  | raised {fault} : scope.Raises calls fault → log = [] → Stops scope node log calls fault
  | other {fault : Fault} : fault.Unnamed → log = [] → Stops scope node log calls fault

/-- A run that folds parts of a node has a value and logs nothing, or stops. -/
structure Scope.Ends {α : Type} (scope : Scope) (node : Node) (run : Traced α) : Prop where
  silent : ∀ a, run.result = .ok a → run.log = []
  stops : ∀ fault, run.result = .error fault → scope.Stops node run.log run.calls fault

section Ends

variable {α β : Type} {scope : Scope} {node child : Node} {run : Traced α} {next : α → Traced β}
  {fault : Fault} {finish : List Value → Traced Value} {log : List String}
  {before calls : List (String × List Value)}

theorem Scope.Stops.within (stops : scope.Stops child log calls fault)
    (member : child ∈ node.valueChildren) : scope.Stops node log calls fault := by
  cases stops with
  | unbound used free logged =>
    exact .unbound (Node.mem_names_iff.mpr (Or.inl ⟨child, member, used⟩)) free logged
  | undefined used free silent =>
    exact .undefined (Node.mem_names_iff.mpr (Or.inl ⟨child, member, used⟩)) free silent
  | raised raises silent => exact .raised raises silent
  | other unnamed silent => exact .other unnamed silent

theorem Scope.Stops.behind (stops : scope.Stops node log calls fault) :
    scope.Stops node log (before ++ calls) fault := by
  cases stops with
  | unbound used free logged => exact .unbound used free logged
  | undefined used free silent => exact .undefined used free silent
  | raised raises silent =>
    obtain ⟨name, f, args, bound, last, failed⟩ := raises
    refine .raised ⟨name, f, args, bound, ?_, failed⟩ silent
    rw [List.getLast?_append, last]
    rfl
  | other unnamed silent => exact .other unnamed silent

theorem Scope.Ends.within (ends : scope.Ends child run) (member : child ∈ node.valueChildren) :
    scope.Ends node run :=
  ⟨ends.silent, fun fault failed => (ends.stops fault failed).within member⟩

theorem Scope.Ends.bind (first : scope.Ends node run)
    (later : ∀ a, run.result = .ok a → scope.Ends node (next a)) : scope.Ends node (run >>= next) := by
  constructor
  · intro b done
    obtain ⟨a, here, behind⟩ := Traced.result_bind_eq_ok.mp done
    rw [Traced.log_bind_of_ok here, first.silent a here, (later a here).silent b behind]
    rfl
  · intro fault failed
    rcases Traced.result_bind_eq_error.mp failed with here | ⟨a, done, behind⟩
    · rw [Traced.bind_of_error here]
      exact first.stops fault here
    · rw [Traced.log_bind_of_ok done, first.silent a done, Traced.calls_bind_of_ok done]
      exact ((later a done).stops fault behind).behind

theorem Scope.ends_pure (a : α) : scope.Ends node (pure a : Traced α) := by
  refine ⟨fun _ _ => rfl, fun fault failed => ?_⟩
  cases failed

theorem Scope.ends_lookup {t : Token} {x : String} (variable_ : t.kind = .variable)
    (told : t.value.shown? = some x) : scope.Ends (.token t) (scope.lookup x) := by
  have used : x ∈ (Node.token t).variableNames :=
    Node.mem_names_iff.mpr (Or.inr ((if_pos variable_).trans told))
  unfold lookup
  cases bound : scope.bindings x with
  | some v => exact ends_pure v
  | none =>
    refine ⟨nofun, fun fault failed => ?_⟩
    cases failed
    exact .unbound used bound rfl

theorem Token.numberFault_unnamed (t : Token) (reason : NotNumber) : (t.numberFault reason).Unnamed := by
  cases reason <;> exact ⟨nofun, nofun⟩

/-- A fault of a literal is about its number or its text, or says that it has
no value. -/
theorem Token.literal_unnamed {t : Token} (failed : t.literal = .error fault) : fault.Unnamed := by
  unfold Token.literal at failed
  split at failed
  · cases read : t.value.toInteger <;> rw [read] at failed <;> cases failed
    exact t.numberFault_unnamed _
  · cases read : t.value.toFloat <;> rw [read] at failed <;> cases failed
    exact t.numberFault_unnamed _
  · split at failed <;> cases failed
    exact ⟨nofun, nofun⟩
  · cases failed
  · cases failed
  · cases failed
    exact ⟨nofun, nofun⟩

theorem Scope.ends_token (scope : Scope) (t : Token) : scope.Ends (.token t) (t.fold scope) := by
  rcases t.fold_cases with ⟨x, variable_, told, looks⟩ | ⟨_, _, fails⟩ | ⟨_, reads⟩
  · rw [looks]
    exact ends_lookup variable_ told
  · rw [fails]
    refine ⟨nofun, fun fault failed => ?_⟩
    cases failed
    exact .other ⟨nofun, nofun⟩ rfl
  · rw [reads]
    exact ⟨fun _ _ => rfl, fun fault failed => .other (Token.literal_unnamed failed) rfl⟩

theorem Scope.ends_leaf (scope : Scope) (l : Leaf) : scope.Ends (.leaf l) l.fold := by
  unfold Leaf.fold
  split
  · exact ends_pure _
  · refine ⟨nofun, fun fault failed => ?_⟩
    cases failed
    exact .other ⟨nofun, nofun⟩ rfl

theorem Scope.ends_invoke {name : String} {f : Function} (bound : scope.functions name = some f)
    (args : List Value) : scope.Ends node (invoke name f args) :=
  ⟨fun _ _ => rfl, fun _ failed => .raised ⟨name, f, args, bound, rfl, failed⟩ rfl⟩

/-- What is settled first fails for a name that has no function, or for a call
or a tree that is not made as it should. -/
theorem Node.ends_prepare (scope : Scope) (node : Node) :
    scope.Ends node (Traced.ofExcept (node.prepare scope)) := by
  refine ⟨fun _ _ => rfl, fun fault failed => ?_⟩
  change node.prepare scope = .error fault at failed
  cases node.form with
  | token t => cases failed
  | leaf l => cases failed
  | array items =>
    rw [prepare_array] at failed
    cases failed
  | nameless =>
    rw [prepare_nameless] at failed
    cases failed
    exact .other ⟨nofun, nofun⟩ rfl
  | call name parts =>
    cases told : name.shown? with
    | none =>
      rw [prepare_unwritable told] at failed
      cases failed
      exact .other ⟨nofun, nofun⟩ rfl
    | some called =>
      cases bound : scope.functions called with
      | none =>
        rw [prepare_undefined told bound] at failed
        cases failed
        exact .undefined (mem_names_iff.mpr (Or.inr (functionName?_call told))) bound rfl
      | some f =>
        rw [prepare_defined told bound] at failed
        cases missing : argsOf (name :: parts) with
        | ok args =>
          rw [missing] at failed
          cases failed
        | error fault =>
          rw [missing] at failed
          cases failed
          refine .other ?_ rfl
          rcases argsOf_eq_error missing with rfl | rfl <;> exact ⟨nofun, nofun⟩
  | other children notArray notCall =>
    rw [prepare_other notArray notCall] at failed
    cases failed
    exact .other ⟨nofun, nofun⟩ rfl

theorem Node.ends_finish (settled : node.prepare scope = .ok finish) (vs : List Value) :
    scope.Ends node (finish vs) := by
  cases node.form with
  | token t =>
    cases settled
    exact scope.ends_token t
  | leaf l =>
    cases settled
    exact scope.ends_leaf l
  | array items =>
    rw [prepare_array] at settled
    cases settled
    exact scope.ends_pure _
  | nameless =>
    rw [prepare_nameless] at settled
    cases settled
  | call name parts =>
    obtain ⟨_, _, _, _, bound, _, rfl⟩ := prepare_call_eq_ok settled
    exact Scope.ends_invoke bound vs
  | other children notArray notCall =>
    rw [prepare_other notArray notCall] at settled
    cases settled

theorem Node.ends_foldAll {nodes : List Node}
    (each : ∀ child ∈ nodes, scope.Ends node (child.fold scope)) :
    scope.Ends node (foldAll scope nodes) := by
  induction nodes with
  | nil => exact scope.ends_pure []
  | cons first rest ih =>
    obtain ⟨here, others⟩ := List.forall_mem_cons.mp each
    rw [foldAll]
    exact here.bind fun v _ => (ih others).bind fun vs _ => scope.ends_pure _

theorem Node.fold_ends (scope : Scope) (node : Node) : scope.Ends node (node.fold scope) := by
  induction node using value_induction with
  | step node inner =>
    rw [fold_eq]
    refine (node.ends_prepare scope).bind fun finish settled => ?_
    have children := ends_foldAll fun child member => (inner child member).within member
    exact children.bind fun vs _ => ends_finish settled vs

theorem Functions.stock_of_select {names : List String} {name : String} {f : Function}
    (bound : Functions.select names name = some f) : Functions.stock name = some f := by
  unfold select at bound
  split at bound
  · exact bound
  · cases bound

/-- What the stock functions fail with is never about a name. -/
theorem Functions.stock_unnamed {name : String} {f : Function} {args : List Value}
    (bound : Functions.stock name = some f) (failed : f args = .error fault) : fault.Unnamed := by
  unfold stock at bound
  split at bound <;> cases bound
  · cases failed
  · cases failed
  · cases failed
  · dsimp only at failed
    split at failed <;> cases failed
    exact ⟨nofun, nofun⟩
  · cases failed
    exact ⟨nofun, nofun⟩

end Ends

end RuleForest
