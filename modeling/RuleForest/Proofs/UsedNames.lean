import RuleForest.Proofs.FoldingEnds

namespace RuleForest

/-- A larger scope binds what a scope binds, to the same. -/
structure Scope.Extends (larger scope : Scope) : Prop where
  bindings : ∀ x v, scope.bindings x = some v → larger.bindings x = some v
  functions : ∀ name f, scope.functions name = some f → larger.functions name = some f

section Names

variable {scope other : Scope} {node : Node} {finish : List Value → Traced Value}

/-- What folding a node settles first depends only on the name of the node. -/
theorem Node.prepare_congr
    (bindings : ∀ x, node.variableName? = some x → other.bindings x = scope.bindings x)
    (functions : ∀ f, node.functionName? = some f → other.functions f = scope.functions f) :
    node.prepare other = node.prepare scope := by
  cases node.form with
  | token t =>
    have same : t.fold other = t.fold scope := by
      rcases t.fold_cases with ⟨x, variable_, told, looks⟩ | ⟨_, _, fails⟩ | ⟨_, reads⟩
      · have own : (token t).variableName? = some x := (if_pos variable_).trans told
        rw [looks, looks, Scope.lookup, Scope.lookup, bindings x own]
      · rw [fails, fails]
      · rw [reads, reads]
    rw [prepare, prepare, same]
  | leaf l => rfl
  | array items => rw [prepare_array, prepare_array]
  | nameless => rw [prepare_nameless, prepare_nameless]
  | call name parts =>
    cases told : name.shown? with
    | none => rw [prepare_unwritable told, prepare_unwritable told]
    | some called =>
      have same := functions called (functionName?_call told)
      cases bound : scope.functions called with
      | none => rw [prepare_undefined told bound, prepare_undefined told (same.trans bound)]
      | some f => rw [prepare_defined told bound, prepare_defined told (same.trans bound)]
  | other children notArray notCall =>
    rw [prepare_other notArray notCall, prepare_other notArray notCall]

theorem Node.foldAll_congr {nodes : List Node}
    (each : ∀ child ∈ nodes, child.fold other = child.fold scope) :
    foldAll other nodes = foldAll scope nodes := by
  induction nodes with
  | nil => rfl
  | cons first rest ih =>
    obtain ⟨here, others⟩ := List.forall_mem_cons.mp each
    rw [foldAll, foldAll, here, ih others]

/-- Scopes that agree on the names in a node fold it alike. -/
theorem Node.fold_congr (bindings : ∀ x ∈ node.variableNames, other.bindings x = scope.bindings x)
    (functions : ∀ f ∈ node.functionNames, other.functions f = scope.functions f) :
    node.fold other = node.fold scope := by
  induction node using value_induction with
  | step node inner =>
    have settled : node.prepare other = node.prepare scope :=
      prepare_congr (fun x own => bindings x (mem_names_iff.mpr (Or.inr own)))
        fun f own => functions f (mem_names_iff.mpr (Or.inr own))
    have children : foldAll other node.valueChildren = foldAll scope node.valueChildren :=
      foldAll_congr fun child member => inner child member
        (fun x used => bindings x (mem_names_iff.mpr (Or.inl ⟨child, member, used⟩)))
        fun f used => functions f (mem_names_iff.mpr (Or.inl ⟨child, member, used⟩))
    rw [fold_eq, fold_eq, settled, children]

/-- A node that settles what comes first and finishes has its own name bound. -/
theorem Node.own_bound {vs : List Value} {v : Value} (settled : node.prepare scope = .ok finish)
    (done : (finish vs).result = .ok v) :
    (∀ x, node.variableName? = some x → ∃ w, scope.bindings x = some w) ∧
      ∀ f, node.functionName? = some f → ∃ g, scope.functions f = some g := by
  constructor
  · intro x own
    obtain ⟨t, rfl, variable_, told⟩ := variableName?_eq_some own
    cases settled
    rw [Token.fold_variable variable_ told, Scope.lookup] at done
    cases bound : scope.bindings x with
    | some w => exact ⟨w, rfl⟩
    | none =>
      rw [bound] at done
      cases done
  · intro f own
    obtain ⟨name, parts, rfl, told⟩ := functionName?_eq_some own
    obtain ⟨_, g, _, again, bound, _, _⟩ := prepare_call_eq_ok settled
    cases told.symm.trans again
    exact ⟨g, bound⟩

/-- A node folds to a value only if every name in it is bound. -/
theorem Node.bound_of_ok {v : Value} (run : (node.fold scope).result = .ok v) :
    (∀ x ∈ node.variableNames, ∃ w, scope.bindings x = some w) ∧
      ∀ f ∈ node.functionNames, ∃ g, scope.functions f = some g := by
  induction node using value_induction generalizing v with
  | step node inner =>
    obtain ⟨finish, vs, settled, children, done, _⟩ := fold_eq_ok run
    obtain ⟨variable_, function⟩ := own_bound settled done
    have each := fold_of_foldAll children
    constructor
    · intro x used
      rcases mem_names_iff.mp used with ⟨child, member, within⟩ | own
      · obtain ⟨w, folded⟩ := each child member
        exact (inner child member folded).1 x within
      · exact variable_ x own
    · intro f used
      rcases mem_names_iff.mp used with ⟨child, member, within⟩ | own
      · obtain ⟨w, folded⟩ := each child member
        exact (inner child member folded).2 f within
      · exact function f own

end Names

/-- Folding depends on a scope only through the names of the variables and of
the calls in value positions, and passes over none that is undefined. A fault
about a name is about one of these, unless the function that was invoked last
raised it, and the stock functions never do. Nothing but the lookup of the
unbound variable that stops the folding is logged. -/
theorem Node.fold_names (node : Node) (scope : Scope) :
    (∀ other : Scope, (∀ x ∈ node.variableNames, other.bindings x = scope.bindings x) →
      (∀ f ∈ node.functionNames, other.functions f = scope.functions f) →
      node.fold other = node.fold scope) ∧
    (∀ v, (node.fold scope).result = .ok v →
      (∀ x ∈ node.variableNames, ∃ w, scope.bindings x = some w) ∧
      (∀ f ∈ node.functionNames, ∃ g, scope.functions f = some g) ∧
      ∀ larger : Scope, larger.Extends scope → (node.fold larger).result = .ok v ∧
        (node.fold larger).calls = (node.fold scope).calls) ∧
    (∀ x, (node.fold scope).result = .error (.undefinedVariable x) →
      (x ∈ node.variableNames ∧ scope.bindings x = none ∧ (node.fold scope).log =
        ["ruletree.ast:DEBUG:lookup of undefined variable " ++ quoted x]) ∨
      scope.Raises (node.fold scope).calls (.undefinedVariable x)) ∧
    (∀ f, (node.fold scope).result = .error (.undefinedFunction f) →
      (f ∈ node.functionNames ∧ scope.functions f = none) ∨
      scope.Raises (node.fold scope).calls (.undefinedFunction f)) ∧
    ((∀ x, (node.fold scope).result ≠ .error (.undefinedVariable x)) → (node.fold scope).log = []) ∧
    ∀ names, scope.functions = Functions.select names →
      (∀ x, (node.fold scope).result = .error (.undefinedVariable x) →
        x ∈ node.variableNames ∧ scope.bindings x = none ∧ (node.fold scope).log =
          ["ruletree.ast:DEBUG:lookup of undefined variable " ++ quoted x]) ∧
      ∀ f, (node.fold scope).result = .error (.undefinedFunction f) →
        f ∈ node.functionNames ∧ scope.functions f = none := by
  have ends := node.fold_ends scope
  have unbound (x : String) (failed : (node.fold scope).result = .error (.undefinedVariable x)) :
      (x ∈ node.variableNames ∧ scope.bindings x = none ∧ (node.fold scope).log =
        ["ruletree.ast:DEBUG:lookup of undefined variable " ++ quoted x]) ∨
      scope.Raises (node.fold scope).calls (.undefinedVariable x) := by
    cases ends.stops _ failed with
    | unbound used free logged => exact Or.inl ⟨used, free, logged⟩
    | raised raises _ => exact Or.inr raises
    | other unnamed _ => exact absurd rfl (unnamed.1 x)
  have undefined (f : String) (failed : (node.fold scope).result = .error (.undefinedFunction f)) :
      (f ∈ node.functionNames ∧ scope.functions f = none) ∨
      scope.Raises (node.fold scope).calls (.undefinedFunction f) := by
    cases ends.stops _ failed with
    | undefined used free _ => exact Or.inl ⟨used, free⟩
    | raised raises _ => exact Or.inr raises
    | other unnamed _ => exact absurd rfl (unnamed.2 f)
  refine ⟨fun other => fold_congr, ?_, unbound, undefined, ?_, ?_⟩
  · intro v run
    obtain ⟨bindings, functions⟩ := bound_of_ok run
    refine ⟨bindings, functions, fun larger extends_ => ?_⟩
    have same : node.fold larger = node.fold scope := by
      refine fold_congr (fun x used => ?_) fun f used => ?_
      · obtain ⟨w, bound⟩ := bindings x used
        rw [bound, extends_.bindings x w bound]
      · obtain ⟨g, bound⟩ := functions f used
        rw [bound, extends_.functions f g bound]
    rw [same]
    exact ⟨run, rfl⟩
  · intro bound
    cases run : (node.fold scope).result with
    | ok v => exact ends.silent v run
    | error fault =>
      cases ends.stops fault run with
      | @unbound x _ _ _ => exact absurd run (bound x)
      | undefined _ _ silent => exact silent
      | raised _ silent => exact silent
      | other _ silent => exact silent
  · intro names chosen
    have mannered {fault : Fault} : scope.Raises (node.fold scope).calls fault → fault.Unnamed := by
      rintro ⟨name, f, args, bound, _, failed⟩
      rw [chosen] at bound
      exact Functions.stock_unnamed (Functions.stock_of_select bound) failed
    exact ⟨fun x failed => (unbound x failed).resolve_right fun raises => (mannered raises).1 x rfl,
      fun f failed => (undefined f failed).resolve_right fun raises => (mannered raises).2 f rfl⟩

/-- The call `second(x, [y])` in scopes that bind `x` alone or both variables,
and that know the function or do not. -/
theorem Node.fold_names_of_second :
    let x : Node := .token ⟨.variable, .text "x", 0, 1⟩
    let y : Node := .token ⟨.variable, .text "y", 0, 1⟩
    let node := Node.call { label := "NAME", text := "second" } [x, .array [y]]
    let functions := Functions.select ["second"]
    let one (name : String) : Option Value := if name = "x" then some .null else none
    let two (name : String) : Option Value := if name = "y" then some (.int 2) else one name
    (node.fold ⟨one, functions⟩).log =
        ["ruletree.ast:DEBUG:lookup of undefined variable " ++ quoted "y"] ∧
      node.fold ⟨fun name => if name = "z" then some .null else one name, functions⟩ =
        node.fold ⟨one, functions⟩ ∧
      (node.fold ⟨two, Functions.stock⟩).calls = [("second", [.null, .list [.int 2]])] ∧
      "second" ∈ node.functionNames ∧ (node.fold ⟨one, fun _ => none⟩).log = [] := by
  intro x y node functions one two
  obtain ⟨agrees, _, _, _, _, stock⟩ := fold_names node ⟨one, functions⟩
  obtain ⟨_, value, _⟩ := fold_names node ⟨two, functions⟩
  obtain ⟨_, _, _, undefined, silent, _⟩ := fold_names node ⟨one, fun _ => none⟩
  refine ⟨?_, agrees _ ?_ fun _ _ => rfl, ?_, ?_, silent fun _ same => nomatch same⟩
  · obtain ⟨_, _, logged⟩ := (stock ["second"] rfl).1 "y" rfl
    exact logged
  · intro name used
    have either : name ∈ ["x", "y"] := used
    rcases List.mem_pair.mp either with rfl | rfl <;> rfl
  · have larger : Scope.Extends ⟨two, Functions.stock⟩ ⟨two, functions⟩ :=
      ⟨fun _ _ bound => bound, fun _ _ bound => Functions.stock_of_select bound⟩
    exact ((value (.list [.int 2]) rfl).2.2 _ larger).2
  · rcases undefined "second" rfl with ⟨used, _⟩ | ⟨_, _, _, bound, _⟩
    · exact used
    · cases bound

end RuleForest
