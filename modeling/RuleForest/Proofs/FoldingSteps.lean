import Mathlib.Data.List.Forall2
import RuleForest.Folding
import RuleForest.Proofs.ReadingSteps

namespace RuleForest

theorem Token.fold_variable {scope : Scope} {t : Token} {x : String} (variable_ : t.kind = .variable)
    (told : t.value.shown? = some x) : t.fold scope = scope.lookup x := by
  rw [fold, if_pos variable_, told]

theorem Token.fold_unwritable {scope : Scope} {t : Token} (variable_ : t.kind = .variable)
    (hidden : t.value.shown? = none) : t.fold scope = .fail .unwritable := by
  rw [fold, if_pos variable_, hidden]

theorem Token.fold_literal {scope : Scope} {t : Token} (other : t.kind ≠ .variable) :
    t.fold scope = .ofExcept t.literal := by
  rw [fold, if_neg other]

/-- How a token folds is the same in all scopes: it is looked up by its name,
it has no name to be looked up by, or it stands for a value by itself. -/
theorem Token.fold_cases (t : Token) :
    (∃ x, t.kind = .variable ∧ t.value.shown? = some x ∧
        ∀ scope : Scope, t.fold scope = scope.lookup x) ∨
      (t.kind = .variable ∧ t.value.shown? = none ∧ ∀ scope, t.fold scope = .fail .unwritable) ∨
      (t.kind ≠ .variable ∧ ∀ scope, t.fold scope = .ofExcept t.literal) := by
  by_cases variable_ : t.kind = .variable
  · cases told : t.value.shown? with
    | some x => exact Or.inl ⟨x, variable_, rfl, fun _ => fold_variable variable_ told⟩
    | none => exact Or.inr (Or.inl ⟨variable_, rfl, fun _ => fold_unwritable variable_ told⟩)
  · exact Or.inr (Or.inr ⟨variable_, fun _ => fold_literal variable_⟩)

namespace Node

/-- The nodes right below a node that are folded for their values: the items
of an array, and the arguments of a call that has some. -/
def valueChildren : Node → List Node
  | .token _ | .leaf _ => []
  | .tree label children =>
    if label = Shape.array.label then children
    else if label = Shape.call.label then (argsOf children).toOption.getD []
    else []

/-- What folding a call settles before any argument is folded. It needs a
name that can be written, a function of that name, and arguments, in this
order. -/
def prepareCall (scope : Scope) : List Node → Except Fault (List Value → Traced Value)
  | [] => .error .missingChild
  | name :: parts =>
    match name.shown? with
    | none => .error .unwritable
    | some called =>
      match scope.functions called with
      | none => .error (.undefinedFunction called)
      | some f => (argsOf (name :: parts)).map fun _ => Scope.invoke called f

/-- What folding a node settles before any node below is folded. What is left
is to finish with the values of the nodes below. -/
def prepare (scope : Scope) : Node → Except Fault (List Value → Traced Value)
  | .token t => .ok fun _ => t.fold scope
  | .leaf l => .ok fun _ => l.fold
  | .tree label children =>
    if label = Shape.array.label then .ok fun vs => pure (.list vs)
    else if label = Shape.call.label then prepareCall scope children
    else .error .childless

/-- The forms of nodes that folding tells apart. -/
inductive Form : Node → Prop
  | token (t : Token) : Form (.token t)
  | leaf (l : Leaf) : Form (.leaf l)
  | array (items : List Node) : Form (.tree Shape.array.label items)
  | nameless : Form (.tree Shape.call.label [])
  | call (name : Node) (parts : List Node) : Form (.tree Shape.call.label (name :: parts))
  | other {label} (children : List Node) : label ≠ Shape.array.label → label ≠ Shape.call.label →
      Form (.tree label children)

theorem form (node : Node) : node.Form := by
  cases node with
  | token t => exact .token t
  | leaf l => exact .leaf l
  | tree label children =>
    by_cases array : label = Shape.array.label
    · rw [array]
      exact .array children
    by_cases call : label = Shape.call.label
    · rw [call]
      cases children with
      | nil => exact .nameless
      | cons name parts => exact .call name parts
    · exact .other children array call

section Forms

variable {scope : Scope} {label called : String} {name child node : Node} {args parts children : List Node}
  {fault : Fault}

theorem callName_call (told : name.shown? = some called) :
    (tree Shape.call.label (name :: parts)).callName = .ok called := by
  have named : nameOf (name :: parts) = .ok called := by rw [nameOf, told]
  exact named

/-- Only a call with a first child has a name. -/
theorem callName_eq_ok {f : String} (named : node.callName = .ok f) :
    ∃ name parts, node = tree Shape.call.label (name :: parts) ∧ name.shown? = some f := by
  cases node.form with
  | token t => cases named
  | leaf l => cases named
  | array items => cases named
  | nameless => cases named
  | call name parts =>
    refine ⟨name, parts, rfl, ?_⟩
    change nameOf (name :: parts) = .ok f at named
    rw [nameOf] at named
    split at named <;> cases named
    assumption
  | other children _ notCall =>
    rw [callName, if_neg (by simp [hasShape, label?, notCall])] at named
    cases named

theorem argsOf_eq_ok (found : argsOf (name :: parts) = .ok args) :
    ∃ label more, parts = .tree label args :: more := by
  unfold argsOf at found
  split at found <;> cases found
  rename_i same
  exact ⟨_, _, (List.cons.inj same).2⟩

theorem argsOf_eq_error (missing : argsOf children = .error fault) :
    fault = .missingChild ∨ fault = .childless := by
  unfold argsOf at missing
  split at missing <;> cases missing
  · exact Or.inr rfl
  · exact Or.inl rfl

theorem valueChildren_array (items : List Node) :
    (tree Shape.array.label items).valueChildren = items := by
  rw [valueChildren, if_pos rfl]

theorem valueChildren_call (children : List Node) :
    (tree Shape.call.label children).valueChildren = (argsOf children).toOption.getD [] := by
  rw [valueChildren, if_neg (by decide), if_pos rfl]

theorem valueChildren_other (notArray : label ≠ Shape.array.label) (notCall : label ≠ Shape.call.label) :
    (tree label children).valueChildren = [] := by
  rw [valueChildren, if_neg notArray, if_neg notCall]

/-- A value child of a call is one of its arguments. -/
theorem mem_valueChildren_call (member : child ∈ (tree Shape.call.label (name :: parts)).valueChildren) :
    ∃ label args more, parts = .tree label args :: more ∧ child ∈ args := by
  rw [valueChildren_call] at member
  cases found : argsOf (name :: parts) with
  | ok args =>
    rw [found] at member
    obtain ⟨label, more, rfl⟩ := argsOf_eq_ok found
    exact ⟨label, args, more, rfl, member⟩
  | error fault =>
    rw [found] at member
    cases member

theorem prepare_array (items : List Node) :
    (tree Shape.array.label items).prepare scope = .ok fun vs => pure (.list vs) := by
  rw [prepare, if_pos rfl]

theorem prepare_nameless : (tree Shape.call.label []).prepare scope = .error .missingChild := by
  rw [prepare, if_neg (by decide), if_pos rfl, prepareCall]

theorem prepare_unwritable (hidden : name.shown? = none) :
    (tree Shape.call.label (name :: parts)).prepare scope = .error .unwritable := by
  rw [prepare, if_neg (by decide), if_pos rfl, prepareCall, hidden]

theorem prepare_undefined (told : name.shown? = some called)
    (missing : scope.functions called = none) :
    (tree Shape.call.label (name :: parts)).prepare scope = .error (.undefinedFunction called) := by
  rw [prepare, if_neg (by decide), if_pos rfl, prepareCall, told]
  simp only [missing]

theorem prepare_defined {f : Function} (told : name.shown? = some called)
    (bound : scope.functions called = some f) :
    (tree Shape.call.label (name :: parts)).prepare scope =
      (argsOf (name :: parts)).map fun _ => Scope.invoke called f := by
  rw [prepare, if_neg (by decide), if_pos rfl, prepareCall, told]
  simp only [bound]

/-- A call goes on to its arguments only with a name, a function and arguments. -/
theorem prepare_call_eq_ok {finish : List Value → Traced Value}
    (settled : (tree Shape.call.label (name :: parts)).prepare scope = .ok finish) :
    ∃ called f args, name.shown? = some called ∧ scope.functions called = some f ∧
      argsOf (name :: parts) = .ok args ∧ finish = Scope.invoke called f := by
  cases told : name.shown? with
  | none =>
    rw [prepare_unwritable told] at settled
    cases settled
  | some called =>
    cases bound : scope.functions called with
    | none =>
      rw [prepare_undefined told bound] at settled
      cases settled
    | some f =>
      rw [prepare_defined told bound] at settled
      cases found : argsOf (name :: parts) with
      | ok args =>
        rw [found] at settled
        cases settled
        exact ⟨called, f, args, rfl, bound, rfl, rfl⟩
      | error fault =>
        rw [found] at settled
        cases settled

theorem prepare_other (notArray : label ≠ Shape.array.label) (notCall : label ≠ Shape.call.label) :
    (tree label children).prepare scope = .error .childless := by
  rw [prepare, if_neg notArray, if_neg notCall]

theorem sizeOf_valueChild (member : child ∈ node.valueChildren) : sizeOf child < sizeOf node := by
  cases node.form with
  | token t => cases member
  | leaf l => cases member
  | array items =>
    rw [valueChildren_array] at member
    have smaller := List.sizeOf_lt_of_mem member
    simp only [tree.sizeOf_spec]
    omega
  | nameless => cases member
  | call name parts =>
    obtain ⟨label, args, more, rfl, inside⟩ := mem_valueChildren_call member
    have smaller := List.sizeOf_lt_of_mem inside
    simp only [tree.sizeOf_spec, List.cons.sizeOf_spec]
    omega
  | other children notArray notCall =>
    rw [valueChildren_other notArray notCall] at member
    cases member

end Forms

/-- What holds of a node if it holds of its value children holds of all nodes. -/
theorem value_induction {motive : Node → Prop}
    (step : ∀ node, (∀ child ∈ node.valueChildren, motive child) → motive node) (node : Node) :
    motive node :=
  step node fun child _member => value_induction step child
termination_by sizeOf node
decreasing_by exact sizeOf_valueChild ‹_›

/-- Folding a node is to settle what comes first, to fold the value children
from left to right, and to finish with their values. -/
theorem fold_eq (scope : Scope) (node : Node) :
    node.fold scope = Traced.ofExcept (node.prepare scope) >>= fun finish =>
      foldAll scope node.valueChildren >>= finish := by
  cases node with
  | token t => rw [fold]; rfl
  | leaf l => rw [fold]; rfl
  | tree label children =>
    rw [fold, prepare, valueChildren]
    split
    · rfl
    split
    · cases children with
      | nil => rfl
      | cons name parts =>
        rw [foldCall, prepareCall]
        cases name.shown? with
        | none => rfl
        | some called =>
          cases bound : scope.functions called with
          | none => simp only [bound]; rfl
          | some f =>
            simp only [bound, foldArgs_eq scope name]
            cases argsOf (name :: parts) <;> rfl
    · rfl

/-- A node with a value has settled what comes first, its value children have
values, and it invokes what they invoke before it finishes with those. -/
theorem fold_eq_ok {scope : Scope} {node : Node} {v : Value} (run : (node.fold scope).result = .ok v) :
    ∃ finish vs, node.prepare scope = .ok finish ∧
      (foldAll scope node.valueChildren).result = .ok vs ∧ (finish vs).result = .ok v ∧
      (node.fold scope).calls = (foldAll scope node.valueChildren).calls ++ (finish vs).calls := by
  rw [fold_eq] at run ⊢
  obtain ⟨finish, settled, later⟩ := Traced.result_bind_eq_ok.mp run
  obtain ⟨vs, children, done⟩ := Traced.result_bind_eq_ok.mp later
  refine ⟨finish, vs, settled, children, done, ?_⟩
  rw [Traced.calls_bind_of_ok settled, Traced.calls_bind_of_ok children]
  rfl

section Lists

variable {scope : Scope} {node : Node} {nodes before after : List Node} {v : Value} {vs : List Value}
  {fault : Fault}

theorem foldAll_append (scope : Scope) (before after : List Node) :
    foldAll scope (before ++ after) = foldAll scope before >>= fun vs =>
      foldAll scope after >>= fun ws => pure (vs ++ ws) := by
  induction before with
  | nil => simp [foldAll]
  | cons node rest ih =>
    rw [List.cons_append, foldAll, ih, foldAll]
    simp only [bind_assoc, pure_bind, List.cons_append]

/-- Nodes that all fold leave what each of them leaves, in order. -/
theorem foldAll_of_ok (run : (foldAll scope nodes).result = .ok vs) :
    List.Forall₂ (fun node v => (node.fold scope).result = .ok v) nodes vs ∧
      (foldAll scope nodes).events = nodes.flatMap fun node => (node.fold scope).events := by
  induction nodes generalizing vs with
  | nil =>
    rw [foldAll] at run ⊢
    cases run
    exact ⟨.nil, rfl⟩
  | cons node rest ih =>
    rw [foldAll] at run ⊢
    obtain ⟨v, first, others⟩ := Traced.result_bind_eq_ok.mp run
    obtain ⟨ws, behind, done⟩ := Traced.result_bind_eq_ok.mp others
    cases done
    obtain ⟨values, events⟩ := ih behind
    refine ⟨.cons first values, ?_⟩
    rw [Traced.bind_of_ok first, Traced.bind_of_ok behind, Traced.pure_eq, List.append_nil, events,
      List.flatMap_cons]

theorem fold_of_foldAll (run : (foldAll scope nodes).result = .ok vs) :
    ∀ node ∈ nodes, ∃ v, (node.fold scope).result = .ok v := by
  have each := (foldAll_of_ok run).1.imp fun node v folded =>
    (⟨⟨v, folded⟩, folded⟩ : (∃ v, (node.fold scope).result = .ok v) ∧ _)
  exact ((List.forall₂_and_left _ _).mp each).1

/-- Folding nodes stops at the first that fails, and leaves what the nodes up
to that one leave, in order. -/
theorem foldAll_of_error (run : (foldAll scope nodes).result = .error fault) :
    ∃ before node after, nodes = before ++ node :: after ∧
      (∀ earlier ∈ before, ∃ v, (earlier.fold scope).result = .ok v) ∧
      (node.fold scope).result = .error fault ∧
      (foldAll scope nodes).events =
        (before ++ [node]).flatMap fun reached => (reached.fold scope).events := by
  induction nodes with
  | nil =>
    rw [foldAll] at run
    cases run
  | cons node rest ih =>
    rw [foldAll] at run ⊢
    rcases Traced.result_bind_eq_error.mp run with here | ⟨v, first, others⟩
    · refine ⟨[], node, rest, rfl, nofun, here, ?_⟩
      rw [Traced.bind_of_error here, List.nil_append, List.flatMap_singleton]
    · rcases Traced.result_bind_eq_error.mp others with behind | ⟨_, _, done⟩
      · obtain ⟨before, failing, after, rfl, folded, failed, events⟩ := ih behind
        refine ⟨node :: before, failing, after, rfl, ?_, failed, ?_⟩
        · exact List.forall_mem_cons.mpr ⟨⟨v, first⟩, folded⟩
        · rw [Traced.bind_of_ok first, Traced.bind_of_error behind, events, List.cons_append,
            List.flatMap_cons]
      · cases done

end Lists

end Node

end RuleForest
