import RuleForest.ShortestDecimal

namespace RuleForest

/-- How a decimal is laid out: the exponents written positionally, and the
least number of digits of a written exponent. -/
structure FloatLayout where
  least : Int
  below : Int
  exponentWidth : Nat
deriving DecidableEq, Repr

namespace FloatLayout

/-- Rules write magnitudes from `10 ^ -4` up to `10 ^ 16` positionally, and
others with a signed exponent of two digits. -/
def rule : FloatLayout := ⟨-4, 16, 2⟩

def zeros (count : Nat) : List Char :=
  List.replicate count '0'

/-- Digits with the point after the first `point` of them. A whole number
keeps one zero after its point. -/
def positional (digits : List Char) (point : Int) : List Char :=
  if point ≤ 0 then '0' :: '.' :: (zeros (-point).toNat ++ digits)
  else
    let whole := digits.take point.toNat
    let fraction := digits.drop point.toNat
    whole ++ zeros (point.toNat - digits.length) ++
      '.' :: (if fraction.isEmpty then ['0'] else fraction)

def scientific (layout : FloatLayout) (digits : List Char) (exponent : Int) : List Char :=
  let power := Nat.toDigits 10 exponent.natAbs
  digits.take 1 ++ (if digits.length ≤ 1 then [] else '.' :: digits.drop 1) ++
    'e' :: (if exponent < 0 then '-' else '+') ::
      (zeros (layout.exponentWidth - power.length) ++ power)

def write (layout : FloatLayout) (d : Decimal) : List Char :=
  let written := Nat.toDigits 10 d.digits
  let digits := (written.reverse.dropWhile (· = '0')).reverse
  let point := written.length + d.exponent
  if layout.least < point ∧ point ≤ layout.below then positional digits point
  else layout.scientific digits (point - 1)

end FloatLayout

/-- The text of a double: the fewest digits that read back, laid out by the rule. -/
def Binary64.text : Binary64 → String
  | .nan => "nan"
  | .infinite negative => if negative then "-inf" else "inf"
  | .finite negative rank =>
    let magnitude :=
      if rank.val = 0 then ['0', '.', '0'] else FloatLayout.rule.write (Binary64.shortest rank.val)
    String.ofList (if negative then '-' :: magnitude else magnitude)

end RuleForest
