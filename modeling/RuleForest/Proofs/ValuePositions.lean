import RuleForest.Proofs.FoldingSteps

namespace RuleForest

namespace Node

mutual

/-- The nodes in value positions of a node, which are the node itself and those
in value positions of its value children. Inner ones come first, and the
children from left to right. -/
def valueNodes : Node → List Node
  | .token t => [.token t]
  | .leaf l => [.leaf l]
  | .tree label children =>
    (if label = Shape.array.label then valueNodesAll children
      else if label = Shape.call.label then argNodes children
      else []) ++ [.tree label children]

/-- Those of the arguments of a call. -/
def argNodes : List Node → List Node
  | _ :: .tree _ args :: _ => valueNodesAll args
  | _ => []

def valueNodesAll : List Node → List Node
  | [] => []
  | node :: rest => node.valueNodes ++ valueNodesAll rest

end

theorem valueNodesAll_eq (nodes : List Node) : valueNodesAll nodes = nodes.flatMap valueNodes := by
  induction nodes with
  | nil => rfl
  | cons node rest ih => rw [valueNodesAll, ih, List.flatMap_cons]

theorem argNodes_eq (children : List Node) :
    argNodes children = ((argsOf children).toOption.getD []).flatMap valueNodes := by
  match children with
  | [] => rfl
  | [_] => rfl
  | _ :: .tree _ args :: _ => exact valueNodesAll_eq args
  | _ :: .token _ :: _ => rfl
  | _ :: .leaf _ :: _ => rfl

theorem valueNodes_eq (node : Node) :
    node.valueNodes = node.valueChildren.flatMap valueNodes ++ [node] := by
  cases node with
  | token t => rfl
  | leaf l => rfl
  | tree label children =>
    rw [valueNodes, valueChildren]
    split
    · rw [valueNodesAll_eq]
    split
    · rw [argNodes_eq]
    · rfl

theorem self_mem_valueNodes (node : Node) : node ∈ node.valueNodes := by
  rw [valueNodes_eq]
  exact List.mem_append_right _ (List.mem_singleton.mpr rfl)

theorem valueNodes_subset {node child : Node} (member : child ∈ node.valueChildren) :
    child.valueNodes ⊆ node.valueNodes := by
  intro sub inside
  rw [valueNodes_eq node]
  exact List.mem_append_left _ (List.mem_flatMap.mpr ⟨child, member, inside⟩)

/-- The name of the variable that a node stands for by itself. -/
def variableName? : Node → Option String
  | .token t => if t.kind = .variable then t.value.shown? else none
  | .leaf _ | .tree _ _ => none

/-- The name of the call that a node is by itself. -/
def functionName? (node : Node) : Option String :=
  node.callName.toOption

theorem variableName?_eq_some {node : Node} {x : String} (own : node.variableName? = some x) :
    ∃ t, node = .token t ∧ t.kind = .variable ∧ t.value.shown? = some x := by
  cases node with
  | token t =>
    rw [variableName?] at own
    split at own
    · rename_i variable_
      exact ⟨t, rfl, variable_, own⟩
    · cases own
  | leaf l => cases own
  | tree label children => cases own

theorem functionName?_eq_some {node : Node} {f : String} (own : node.functionName? = some f) :
    ∃ name parts, node = .tree Shape.call.label (name :: parts) ∧ name.shown? = some f := by
  rw [functionName?] at own
  cases named : node.callName with
  | ok name =>
    rw [named] at own
    cases own
    exact callName_eq_ok named
  | error fault =>
    rw [named] at own
    cases own

theorem functionName?_call {name : Node} {parts : List Node} {f : String}
    (told : name.shown? = some f) :
    (tree Shape.call.label (name :: parts)).functionName? = some f :=
  congrArg Except.toOption (callName_call told)

/-- The names of the variables in value positions of a node. -/
def variableNames (node : Node) : List String :=
  node.valueNodes.filterMap variableName?

/-- The names of the calls in value positions of a node. -/
def functionNames (node : Node) : List String :=
  node.valueNodes.filterMap functionName?

/-- What stands in a value position of a node is the node itself or stands in
one of a value child. -/
theorem mem_names_iff {name? : Node → Option String} {node : Node} {x : String} :
    x ∈ node.valueNodes.filterMap name? ↔
      (∃ child ∈ node.valueChildren, x ∈ child.valueNodes.filterMap name?) ∨ name? node = some x := by
  rw [valueNodes_eq, List.filterMap_append, List.mem_append, List.filterMap_flatMap, List.mem_flatMap]
  simp

end Node

/-- What stands around a value child: the rest of an array, or the name of a
call, its other arguments, and what is not looked at. -/
inductive Surrounding where
  | item (before after : List Node)
  | argument (name : Node) (label : String) (before after more : List Node)

namespace Surrounding

variable {scope : Scope} {node sub : Node} {level : Surrounding}

/-- The nodes left of the value child. -/
def before : Surrounding → List Node
  | item before _ => before
  | argument _ _ before _ _ => before

def after : Surrounding → List Node
  | item _ after => after
  | argument _ _ _ after _ => after

/-- The node that has the given one for this value child. -/
def around : Surrounding → Node → Node
  | item before after, node => .tree Shape.array.label (before ++ node :: after)
  | argument name label before after more, node =>
    .tree Shape.call.label (name :: .tree label (before ++ node :: after) :: more)

/-- What is settled before the value children, whichever they are. -/
def settle (scope : Scope) : Surrounding → Except Fault (List Value → Traced Value)
  | item _ _ => .ok fun vs => pure (.list vs)
  | argument name _ _ _ _ =>
    match name.shown? with
    | none => .error .unwritable
    | some called =>
      match scope.functions called with
      | none => .error (.undefinedFunction called)
      | some f => .ok (Scope.invoke called f)

theorem prepare_around (scope : Scope) (level : Surrounding) (node : Node) :
    (level.around node).prepare scope = level.settle scope := by
  cases level with
  | item before after => exact Node.prepare_array _
  | argument name label before after more =>
    rw [around, settle]
    cases told : name.shown? with
    | none => exact Node.prepare_unwritable told
    | some called =>
      cases bound : scope.functions called with
      | none =>
        simp only [bound]
        exact Node.prepare_undefined told bound
      | some f =>
        simp only [bound]
        exact Node.prepare_defined told bound

theorem valueChildren_around (level : Surrounding) (node : Node) :
    (level.around node).valueChildren = level.before ++ node :: level.after := by
  cases level with
  | item before after => exact Node.valueChildren_array _
  | argument name label before after more => exact Node.valueChildren_call _

/-- Every value child has its surrounding. -/
theorem exists_around (member : sub ∈ node.valueChildren) :
    ∃ level : Surrounding, node = level.around sub := by
  cases node.form with
  | token t => cases member
  | leaf l => cases member
  | array items =>
    rw [Node.valueChildren_array] at member
    obtain ⟨before, after, rfl⟩ := List.append_of_mem member
    exact ⟨.item before after, rfl⟩
  | nameless => cases member
  | call name parts =>
    obtain ⟨label, args, more, rfl, inside⟩ := Node.mem_valueChildren_call member
    obtain ⟨before, after, rfl⟩ := List.append_of_mem inside
    exact ⟨.argument name label before after more, rfl⟩
  | other children notArray notCall =>
    rw [Node.valueChildren_other notArray notCall] at member
    cases member

end Surrounding

namespace Node

/-- The node with the given one in a value position. The surroundings lead
down to it, the outermost first. -/
def surrounded (levels : List Surrounding) (node : Node) : Node :=
  levels.foldr Surrounding.around node

/-- What is folded before a node in a value position. On each level the
function of a call is looked up, and the nodes left of the way down are folded. -/
def foldAhead (scope : Scope) : List Surrounding → Traced Unit
  | [] => pure ()
  | level :: inner => do
    let _ ← Traced.ofExcept (level.settle scope)
    let _ ← foldAll scope level.before
    foldAhead scope inner

/-- The nodes in value positions are those that surroundings lead down to. -/
theorem mem_valueNodes_iff {node sub : Node} :
    sub ∈ node.valueNodes ↔ ∃ levels, node = sub.surrounded levels := by
  constructor
  · intro member
    induction node using value_induction with
    | step node inner =>
      rw [valueNodes_eq] at member
      rcases List.mem_append.mp member with below | here
      · obtain ⟨child, isChild, inside⟩ := List.mem_flatMap.mp below
        obtain ⟨levels, same⟩ := inner child isChild inside
        obtain ⟨level, whole⟩ := Surrounding.exists_around isChild
        exact ⟨level :: levels, by rw [whole, same]; rfl⟩
      · exact ⟨[], (List.mem_singleton.mp here).symm⟩
  · rintro ⟨levels, rfl⟩
    induction levels with
    | nil => exact self_mem_valueNodes sub
    | cons level inner ih =>
      refine valueNodes_subset ?_ ih
      change _ ∈ (level.around (sub.surrounded inner)).valueChildren
      rw [Surrounding.valueChildren_around]
      exact List.mem_append_right _ List.mem_cons_self

/-- Folding a node with another one in a value position is to fold what comes
before, then that node, and then to go on with its value. -/
theorem fold_surrounded (scope : Scope) (levels : List Surrounding) :
    ∃ behind : Value → Traced Value, ∀ sub : Node,
      (sub.surrounded levels).fold scope =
        foldAhead scope levels >>= fun _ => sub.fold scope >>= behind := by
  induction levels with
  | nil => exact ⟨pure, fun sub => (bind_pure _).symm⟩
  | cons level inner ih =>
    obtain ⟨behind, factors⟩ := ih
    have opened (sub : Node) : (sub.surrounded (level :: inner)).fold scope =
        Traced.ofExcept (level.settle scope) >>= fun finish =>
          foldAll scope level.before >>= fun vs =>
            foldAhead scope inner >>= fun _ => sub.fold scope >>= fun v => behind v >>= fun w =>
              foldAll scope level.after >>= fun ws => finish (vs ++ w :: ws) := by
      change (level.around (sub.surrounded inner)).fold scope = _
      rw [fold_eq, Surrounding.prepare_around, Surrounding.valueChildren_around, foldAll_append]
      simp only [foldAll, factors sub, bind_assoc, pure_bind]
    -- The values left of the way down are there only if nothing before fails.
    cases settled : level.settle scope with
    | error fault =>
      refine ⟨pure, fun sub => ?_⟩
      rw [opened, foldAhead, settled]
      rfl
    | ok finish =>
      cases left : (foldAll scope level.before).result with
      | error fault =>
        refine ⟨pure, fun sub => ?_⟩
        rw [opened, foldAhead, settled]
        change (foldAll scope level.before >>= _) = (foldAll scope level.before >>= _) >>= _
        rw [Traced.bind_of_error left, Traced.bind_of_error left]
        rfl
      | ok vs =>
        refine ⟨fun v => behind v >>= fun w =>
          foldAll scope level.after >>= fun ws => finish (vs ++ w :: ws), fun sub => ?_⟩
        rw [opened, foldAhead, settled]
        change (foldAll scope level.before >>= _) = (foldAll scope level.before >>= _) >>= _
        rw [bind_assoc, Traced.bind_of_ok left, Traced.bind_of_ok left]

end Node

end RuleForest
