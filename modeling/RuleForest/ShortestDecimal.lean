import RuleForest.Binary64

namespace RuleForest

/-- The number `digits * 10 ^ exponent`. -/
structure Decimal where
  digits : Nat
  exponent : Int
deriving DecidableEq, Repr

namespace Decimal

/-- The decimal compared with `halves` half units of a double. -/
def compareHalves (d : Decimal) (halves : Nat) : Ordering :=
  compare (d.digits * Nat.pow 10 d.exponent.toNat * (2 * Binary64.unitsInOne))
    (halves * Nat.pow 10 (-d.exponent).toNat)

/-- Whether the decimal rounds to the double of this rank: it lies between
the two midpoints, and on one of them only if the rank is even. -/
def readsBack (d : Decimal) (rank : Nat) : Bool :=
  let lower := d.compareHalves (Binary64.units (rank - 1) + Binary64.units rank)
  let upper := d.compareHalves (Binary64.units rank + Binary64.units (rank + 1))
  let even := rank % 2 == 0
  (lower == .gt || even && lower == .eq) && (upper == .lt || even && upper == .eq)

end Decimal

namespace Binary64

/-- The least `k` with the value below `10 ^ k`, for a rank above zero. -/
def decimalScale (rank : Nat) : Int :=
  (decimalLength (units rank * Nat.pow 10 400 / unitsInOne) : Int) - 400

/-- Of the value's two neighbours with `count` digits, the nearer one that
reads back. Equally near ones leave the choice to the even digit. -/
def neighbour? (rank : Nat) (count : Nat) : Option Decimal :=
  let exponent := decimalScale rank - count
  let num := units rank * Nat.pow 10 (-exponent).toNat
  let den := unitsInOne * Nat.pow 10 exponent.toNat
  let below : Decimal := ⟨num / den, exponent⟩
  let above : Decimal := ⟨num / den + 1, exponent⟩
  match below.readsBack rank, above.readsBack rank with
  | true, true => some ⟨divEven num den, exponent⟩
  | true, false => some below
  | false, true => some above
  | false, false => none

/-- The decimal with the fewest digits that reads back as the rank. Seventeen
digits always suffice; the exact value stands behind them. -/
def shortest (rank : Nat) : Decimal :=
  ((List.range 17).findSome? fun i => neighbour? rank (i + 1)).getD
    ⟨units rank * Nat.pow 5 1074, -1074⟩

end Binary64

end RuleForest
