namespace RuleForest

namespace Binary64

/-- The finite magnitudes are counted upwards from zero, so many to a binade. -/
def binade : Nat := Nat.pow 2 52

/-- How many finite magnitudes there are. The one after the last is infinite. -/
def rankCount : Nat := 2047 * binade

/-- How many times the least magnitude above zero is contained in one. -/
def unitsInOne : Nat := Nat.pow 2 1074

end Binary64

/-- A double. A finite one is its sign and the rank of its magnitude, so
the two zeros differ and no value has two forms. -/
inductive Binary64 where
  | nan
  | infinite (negative : Bool)
  | finite (negative : Bool) (rank : Fin Binary64.rankCount)
deriving DecidableEq, Repr

namespace Binary64

/-- The magnitude of a rank, in units of the least one above zero. -/
def units (rank : Nat) : Nat :=
  if rank < binade then rank else (binade + rank % binade) * Nat.pow 2 (rank / binade - 1)

/-- The quotient rounded to the nearest integer, a half to the even one. -/
def divEven (a b : Nat) : Nat :=
  if 2 * (a % b) < b then a / b
  else if b < 2 * (a % b) then a / b + 1
  else a / b + a / b % 2

/-- The rank nearest to a number of units given as a quotient. A carry out
of the significand runs into the next binade by itself. -/
def nearestRank (num den : Nat) : Nat :=
  let scale := Nat.log2 (num / den) - 52
  scale * binade + divEven num (den * Nat.pow 2 scale)

/-- The double nearest to a quotient; past the last finite one it is infinite. -/
def ofQuotient (negative : Bool) (num den : Nat) : Binary64 :=
  let rank := nearestRank (num * unitsInOne) den
  if bound : rank < rankCount then .finite negative ⟨rank, bound⟩ else .infinite negative

def ofInt (n : Int) : Binary64 :=
  ofQuotient (n < 0) n.natAbs 1

/-- How many decimal digits a natural number is written with. -/
def decimalLength (n : Nat) : Nat :=
  (Nat.toDigits 10 n).length

/-- The double nearest to `digits * 10 ^ exponent`. The first tests only
spare the powers of ten where the answer is already certain. -/
def ofDecimal (negative : Bool) (digits : Nat) (exponent : Int) : Binary64 :=
  if digits = 0 then .finite negative ⟨0, by decide⟩
  else if 310 < exponent then .infinite negative
  else if exponent + decimalLength digits < -330 then .finite negative ⟨0, by decide⟩
  else ofQuotient negative (digits * Nat.pow 10 exponent.toNat) (Nat.pow 10 (-exponent).toNat)

/-- The signed number of units of a finite value. -/
def signedUnits (negative : Bool) (rank : Nat) : Int :=
  if negative then -(units rank : Int) else units rank

/-- A finite value without its fraction. -/
def truncated (negative : Bool) (rank : Nat) : Int :=
  let whole := units rank / unitsInOne
  if negative then -(whole : Int) else whole

end Binary64

end RuleForest
