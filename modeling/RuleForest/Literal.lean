import RuleForest.FloatNumeral
import RuleForest.Fault

namespace RuleForest

/-- Why a value is no number. Only the first is a fault of its text. -/
inductive NotNumber where
  | malformed
  | notNumeric
  | overflow
deriving DecidableEq, Repr

namespace Value

/-- The integer a value stands for. A double loses its fraction. -/
def toInteger : Value → Except NotNumber Int
  | .bool b => .ok (if b then 1 else 0)
  | .int n => .ok n
  | .float .nan => .error .malformed
  | .float (.infinite _) => .error .overflow
  | .float (.finite negative rank) => .ok (Binary64.truncated negative rank)
  | .text s =>
    match Numeral.integer? s with
    | some n => .ok n
    | none => .error .malformed
  | .null | .list _ => .error .notNumeric

/-- The double a value stands for. An integer may round but not to infinity. -/
def toFloat : Value → Except NotNumber Binary64
  | .bool b => .ok (Binary64.ofInt (if b then 1 else 0))
  | .int n =>
    match Binary64.ofInt n with
    | .infinite _ => .error .overflow
    | x => .ok x
  | .float x => .ok x
  | .text s =>
    match Numeral.float? s with
    | some x => .ok x
    | none => .error .malformed
  | .null | .list _ => .error .notNumeric

/-- Whether a value counts as true: the boolean, or its name in any case. No
other value is written like that name. -/
def isTrue : Value → Bool
  | .bool b => b
  | .text s => s.toList.map Char.toLower = ['t', 'r', 'u', 'e']
  | _ => false

end Value

namespace Token

def numberFault (t : Token) : NotNumber → Fault
  | .malformed => .blame (.malformedNumeral t.kind t.value) t
  | .notNumeric => .notNumeric
  | .overflow => .overflow

/-- The value of a token that stands for a value by itself. -/
def literal (t : Token) : Except Fault Value :=
  match t.kind with
  | .integer => (t.value.toInteger.map .int).mapError t.numberFault
  | .float => (t.value.toFloat.map .float).mapError t.numberFault
  | .bool => if t.value.isWritable then .ok (.bool t.value.isTrue) else .error .unwritable
  | .null => .ok .null
  | .atom => .ok t.value
  | kind => .error (.blame (.noValue kind) t)

end Token

end RuleForest
