import RuleForest.Value

namespace RuleForest

/-- The number behind a value, in units of the least double above zero. So
a boolean, an integer and a double are compared without rounding. -/
inductive Quantity where
  | infinite (negative : Bool)
  | exact (units : Int)
deriving DecidableEq, Repr

def Binary64.quantity? : Binary64 → Option Quantity
  | .nan => none
  | .infinite negative => some (.infinite negative)
  | .finite negative rank => some (.exact (signedUnits negative rank))

namespace Value

def quantity? : Value → Option Quantity
  | .bool b => some (.exact (if b then Binary64.unitsInOne else 0))
  | .int n => some (.exact (n * Binary64.unitsInOne))
  | .float x => x.quantity?
  | _ => none

/-- Numbers agree when their quantities are equal, whatever their types.
What has no quantity agrees with no number, not even with itself. -/
def numbersAgree (a b : Value) : Bool :=
  match a.quantity?, b.quantity? with
  | some p, some q => p = q
  | _, _ => false

mutual

def agrees : Value → Value → Bool
  | .null, .null => true
  | .text a, .text b => a = b
  | .list as, .list bs => agreesAll as bs
  | a, b => numbersAgree a b

def agreesAll : List Value → List Value → Bool
  | [], [] => true
  | a :: as, b :: bs => agrees a b && agreesAll as bs
  | _, _ => false

end

end Value

end RuleForest
