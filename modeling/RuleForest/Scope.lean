import RuleForest.Traced

namespace RuleForest

/-- The values of the variables. -/
abbrev Bindings := String → Option Value

/-- A function that rules may call. -/
abbrev Function := List Value → Except Fault Value

abbrev Functions := String → Option Function

/-- What the names in a node stand for while it is folded. -/
structure Scope where
  bindings : Bindings
  functions : Functions

namespace Scope

/-- Looks a variable up. A missing one is logged and is a fault. -/
def lookup (scope : Scope) (name : String) : Traced Value :=
  match scope.bindings name with
  | some v => pure v
  | none => do
    Traced.emit (.undefinedLookup name)
    Traced.fail (.undefinedVariable name)

def invoke (name : String) (f : Function) (args : List Value) : Traced Value := do
  Traced.emit (.invoked name args)
  Traced.ofExcept (f args)

end Scope

namespace Functions

/-- The stock functions. One of the names is known but bound to nothing. -/
def stock : Functions
  | "count" => some fun args => .ok (.int args.length)
  | "list" => some fun args => .ok (.list args)
  | "null" => some fun _ => .ok .null
  | "second" => some fun
    | [_, b] => .ok b
    | _ => .error .wrongArity
  | "fail" => some fun _ => .error (.raised "fail called")
  | _ => none

/-- The stock functions of the given names, and no others. -/
def select (names : List String) : Functions :=
  fun name => if names.contains name then stock name else none

end Functions

end RuleForest
