namespace RuleForest

/-- The zeros of the decimal digits of every script in Unicode 14. The nine
other digits of a script follow its zero. -/
def digitZeros : List Nat := [
    48, 1632, 1776, 1984, 2406, 2534, 2662, 2790, 2918, 3046, 3174, 3302, 3430, 3558, 3664, 3792,
    3872, 4160, 4240, 6112, 6160, 6470, 6608, 6784, 6800, 6992, 7088, 7232, 7248, 42528, 43216,
    43264, 43472, 43504, 43600, 44016, 65296, 66720, 68912, 69734, 69872, 69942, 70096, 70384,
    70736, 70864, 71248, 71360, 71472, 71904, 72016, 72784, 73040, 73120, 92768, 92864, 93008,
    120782, 120792, 120802, 120812, 120822, 123200, 123632, 125264, 130032]

/-- What a decimal digit counts for, in any script. -/
def digit? (c : Char) : Option Nat :=
  (digitZeros.find? fun start => start ≤ c.toNat && c.toNat < start + 10).map (c.toNat - ·)

/-- The white space of Unicode, which may surround a numeral. -/
def isWhiteSpace (c : Char) : Bool :=
  let code := c.toNat
  9 ≤ code && code ≤ 13 || code = 0x20 || code = 0x85 || code = 0xA0 || code = 0x1680
    || 0x2000 ≤ code && code ≤ 0x200A || code = 0x2028 || code = 0x2029 || code = 0x202F
    || code = 0x205F || code = 0x3000

/-- The characters that leave a text blank: white space and the four
information separators. -/
def isBlank (c : Char) : Bool :=
  isWhiteSpace c || 0x1C ≤ c.toNat && c.toNat ≤ 0x1F

/-- The text without the white space around it. -/
def trim (s : List Char) : List Char :=
  ((s.dropWhile isWhiteSpace).reverse.dropWhile isWhiteSpace).reverse

namespace Numeral

/-- An optional sign, and what follows it. -/
def splitSign : List Char → Bool × List Char
  | [] => (false, [])
  | c :: rest =>
    if c = '-' then (true, rest) else if c = '+' then (false, rest) else (false, c :: rest)

def signed (negative : Bool) (n : Nat) : Int :=
  if negative then -(n : Int) else n

/-- What digits stand for in base ten, the first being the highest. -/
def ofDigits (digits : List Nat) : Nat :=
  digits.foldl (fun n digit => 10 * n + digit) 0

/-- Reads a text of digits. Between two of them one underscore may stand. -/
def digits? : List Char → Option (List Nat)
  | [] => none
  | [c] => (digit? c).map ([·])
  | c :: d :: rest => do
    let first ← digit? c
    let others ← if d = '_' then digits? rest else digits? (d :: rest)
    pure (first :: others)

/-- Integers of more digits are neither read nor written. -/
def maxDigits : Nat := 4300

/-- Reads an integer numeral: a sign if there is one, and digits of any
script, with white space around them. -/
def integer? (s : String) : Option Int := do
  let (negative, body) := splitSign (trim s.toList)
  let digits ← digits? body
  if digits.length ≤ maxDigits then pure (signed negative (ofDigits digits)) else none

/-- Whether an integer is short enough to be written, whatever its sign. -/
def isWritable (n : Int) : Bool :=
  n.natAbs < Nat.pow 10 maxDigits

theorem isWritable_eq_false {n : Int} (long : Nat.pow 10 maxDigits ≤ n.natAbs) :
    isWritable n = false :=
  decide_eq_false (Nat.not_lt.mpr long)

end Numeral

end RuleForest
