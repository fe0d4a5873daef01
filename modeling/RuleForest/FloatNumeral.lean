import RuleForest.Binary64
import RuleForest.IntegerNumeral

namespace RuleForest

namespace Numeral

def isDigit (c : Char) : Bool :=
  (digit? c).isSome

/-- Removes the underscores, each of which has to stand between two digits. -/
def joined? (afterDigit : Bool) : List Char → Option (List Char)
  | [] => some []
  | [c] => if c = '_' then none else some [c]
  | c :: d :: rest =>
    if c = '_' then
      if afterDigit && isDigit d then joined? false (d :: rest) else none
    else (joined? (isDigit c) (d :: rest)).map (c :: ·)

def ofDigitChars (s : List Char) : Nat :=
  ofDigits (s.filterMap digit?)

/-- Reads what may follow the digits of a decimal: nothing, or an exponent. -/
def exponent? : List Char → Option Int
  | [] => some 0
  | c :: rest =>
    let (negative, digits) := splitSign rest
    if (c = 'e' || c = 'E') && !digits.isEmpty && digits.all isDigit then
      some (signed negative (ofDigitChars digits))
    else none

/-- Splits off a point and the digits after it. -/
def splitFraction : List Char → List Char × List Char
  | [] => ([], [])
  | c :: rest => if c = '.' then rest.span isDigit else ([], c :: rest)

/-- Reads digits with an optional point among them and an optional exponent,
as an integer and the power of ten that scales it. -/
def scaled? (s : List Char) : Option (Nat × Int) := do
  let (whole, rest) := s.span isDigit
  let (fraction, rest) := splitFraction rest
  let exponent ← exponent? rest
  if whole.isEmpty && fraction.isEmpty then none
  else pure (ofDigitChars (whole ++ fraction), exponent - fraction.length)

/-- Reads a float numeral: a decimal rounded to the nearest double, or the
name of an infinity or of the undefined value. -/
def float? (s : String) : Option Binary64 := do
  let text ← joined? false (trim s.toList)
  let (negative, body) := splitSign text
  let word := String.ofList (body.map Char.toLower)
  if word = "nan" then pure .nan
  else if word = "inf" || word = "infinity" then pure (.infinite negative)
  else
    let (digits, exponent) ← scaled? body
    pure (.ofDecimal negative digits exponent)

end Numeral

end RuleForest
