import RuleForest.Literal
import RuleForest.Scope
import RuleForest.Setting

namespace RuleForest

namespace Node

def arrayItems : Node → Except Fault (List Node)
  | node@(.tree _ children) =>
    if node.hasShape .array then .ok children else .error (.otherShape .array node)
  | node => .error (.otherShape .array node)

/-- The name of a call is the form of its first child, whatever that is. -/
def nameOf : List Node → Except Fault String
  | [] => .error .missingChild
  | name :: _ =>
    match name.shown? with
    | some called => .ok called
    | none => .error .unwritable

/-- The arguments of a call are the children of its second child. -/
def argsOf : List Node → Except Fault (List Node)
  | _ :: .tree _ args :: _ => .ok args
  | _ :: _ :: _ => .error .childless
  | _ => .error .missingChild

def callName : Node → Except Fault String
  | node@(.tree _ children) =>
    if node.hasShape .call then nameOf children else .error (.otherShape .call node)
  | node => .error (.otherShape .call node)

def callArgs : Node → Except Fault (List Node)
  | node@(.tree _ children) =>
    if node.hasShape .call then argsOf children else .error (.otherShape .call node)
  | node => .error (.otherShape .call node)

end Node

namespace Token

/-- A variable folds to what it is bound to, any other token to its own value. -/
def fold (scope : Scope) (t : Token) : Traced Value :=
  if t.kind = .variable then
    match t.value.shown? with
    | some name => scope.lookup name
    | none => .fail .unwritable
  else .ofExcept t.literal

end Token

namespace Leaf

def fold (l : Leaf) : Traced Value :=
  if l.label = Leaf.stringLabel then pure (.text l.text)
  else .fail (.parse (.unexpectedLeaf l.label) none)

end Leaf

namespace Node

mutual

/-- Folds a node to its value. The function of a call is looked up before
any of its arguments is folded. -/
def fold (scope : Scope) : Node → Traced Value
  | .token t => t.fold scope
  | .leaf l => l.fold
  | .tree label children =>
    if label = Shape.array.label then return .list (← foldAll scope children)
    else if label = Shape.call.label then foldCall scope children
    else .fail .childless

/-- Folds a call given as its name and its arguments. -/
def foldCall (scope : Scope) : List Node → Traced Value
  | [] => .fail .missingChild
  | name :: parts =>
    match name.shown? with
    | none => .fail .unwritable
    | some called =>
      match scope.functions called with
      | none => .fail (.undefinedFunction called)
      | some f => do
        let args ← foldArgs scope parts
        Scope.invoke called f args

/-- Folds the children of the first of the parts, which are the arguments. -/
def foldArgs (scope : Scope) : List Node → Traced (List Value)
  | [] => .fail .missingChild
  | .tree _ args :: _ => foldAll scope args
  | .token _ :: _ | .leaf _ :: _ => .fail .childless

/-- Folds nodes from left to right, up to the first fault. -/
def foldAll (scope : Scope) : List Node → Traced (List Value)
  | [] => pure []
  | node :: rest => do
    let v ← fold scope node
    let vs ← foldAll scope rest
    pure (v :: vs)

end

/-- The parts of a call fold as its arguments do, and a call without them
fails as its view does. -/
theorem foldArgs_eq (scope : Scope) (name : Node) (parts : List Node) :
    foldArgs scope parts = Traced.ofExcept (argsOf (name :: parts)) >>= foldAll scope := by
  cases parts with
  | nil => rfl
  | cons part more => cases part <;> rfl

/-- Whether the node is a plain token of an ignored group. -/
def isIgnored (o : Options) : Node → Bool
  | .token t => o.ignores t.group
  | _ => false

end Node

/-- Folds a forest, without the plain tokens of ignored groups. -/
def foldForest (o : Options) (scope : Scope) (nodes : List Node) : Traced (List Value) :=
  Node.foldAll scope (nodes.filter fun node => !node.isIgnored o)

end RuleForest
