import RuleForest.FloatText
import RuleForest.IntegerNumeral
import RuleForest.Printable
import RuleForest.Value

namespace RuleForest

/-- Text is put between single quotes, or between double quotes where that
spares escaping a single one. -/
def quoteMark (s : List Char) : Char :=
  if s.contains '\'' && !s.contains '"' then '"' else '\''

def hexEscape (letter : Char) (width : Nat) (code : Nat) : List Char :=
  let digits := Nat.toDigits 16 code
  '\\' :: letter :: (List.replicate (width - digits.length) '0' ++ digits)

/-- One character as it stands between quotes. -/
def quotedChar (mark c : Char) : List Char :=
  if c = mark || c = '\\' then ['\\', c]
  else if c = '\n' then ['\\', 'n']
  else if c = '\r' then ['\\', 'r']
  else if c = '\t' then ['\\', 't']
  else if isPrintable c then [c]
  else if c.toNat < 0x100 then hexEscape 'x' 2 c.toNat
  else if c.toNat < 0x10000 then hexEscape 'u' 4 c.toNat
  else hexEscape 'U' 8 c.toNat

def quotedChars (s : List Char) : List Char :=
  let mark := quoteMark s
  mark :: (s.flatMap (quotedChar mark) ++ [mark])

def quoted (s : String) : String :=
  String.ofList (quotedChars s.toList)

namespace Value

mutual

/-- Whether a value has a written form. A list has none if one of its items
has none. -/
def isWritable : Value → Bool
  | .int n => Numeral.isWritable n
  | .list items => areWritable items
  | .null | .bool _ | .float _ | .text _ => true

def areWritable : List Value → Bool
  | [] => true
  | item :: rest => item.isWritable && areWritable rest

end

mutual

/-- The text of a value, in which texts stand between quotes. It is the
written form of the values that have one, and whatever tells a value asks for
that first. -/
def written : Value → String
  | .null => "None"
  | .bool b => if b then "True" else "False"
  | .int n => n.repr
  | .float x => x.text
  | .text s => quoted s
  | .list items => "[" ++ ", ".intercalate (writtenAll items) ++ "]"

def writtenAll : List Value → List String
  | [] => []
  | item :: rest => item.written :: writtenAll rest

end

/-- The text of a value that serves as a name. Only a text differs from its
written form. -/
def shown : Value → String
  | .text s => s
  | v => v.written

/-- The name that a value gives, if it has a written form. -/
def shown? (v : Value) : Option String :=
  if v.isWritable then some v.shown else none

theorem shown?_eq_some_iff {v : Value} {name : String} :
    v.shown? = some name ↔ v.isWritable = true ∧ v.shown = name := by
  rw [shown?, Option.ite_none_right_eq_some, Option.some.injEq]

theorem shown?_eq_none_iff {v : Value} : v.shown? = none ↔ v.isWritable = false := by
  rw [shown?]
  cases v.isWritable <;> simp

end Value

end RuleForest
