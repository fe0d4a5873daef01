import Mathlib.Data.List.Induction
import Mathlib.Data.List.TakeWhile
import Mathlib.Data.Nat.Digits.Defs
import RuleForest.IntegerNumeral

namespace RuleForest

/-- A digit of any script lies at its place behind the zero of that script. -/
theorem digit?_eq_some {c : Char} {d : Nat} (digit : digit? c = some d) :
    d < 10 ∧ c.toNat - d ∈ digitZeros ∧ d ≤ c.toNat := by
  obtain ⟨start, found, rfl⟩ := Option.map_eq_some_iff.mp digit
  have member := List.mem_of_find?_eq_some found
  have range := List.find?_some found
  simp only [Bool.and_eq_true, decide_eq_true_eq] at range
  obtain ⟨lower, upper⟩ := range
  have zero : c.toNat - (c.toNat - start) = start := by omega
  rw [zero]
  exact ⟨by omega, member, Nat.sub_le _ _⟩

theorem ne_of_digit? {c other : Char} {d : Nat} (digit : digit? c = some d)
    (none : digit? other = none) : c ≠ other := by
  rintro rfl
  cases digit.symm.trans none

/-- No script has its digits among the white space. -/
theorem digitZeros_place : ∀ start ∈ digitZeros, start = 0x30 ∨
    0x3000 < start ∨ 0x1680 < start ∧ start + 9 < 0x2000 ∨ 0xA0 < start ∧ start + 9 < 0x1680 := by
  decide

theorem isWhiteSpace_of_digit? {c : Char} {d : Nat} (digit : digit? c = some d) :
    isWhiteSpace c = false := by
  obtain ⟨small, member, le⟩ := digit?_eq_some digit
  have place := digitZeros_place _ member
  simp only [isWhiteSpace, Bool.or_eq_false_iff, Bool.and_eq_false_iff, decide_eq_false_iff_not]
  omega

/-- No digit of any script is one of the characters that leave a text blank. -/
theorem isBlank_of_digit? {c : Char} {d : Nat} (digit : digit? c = some d) : isBlank c = false := by
  obtain ⟨_, member, le⟩ := digit?_eq_some digit
  have place := digitZeros_place _ member
  rw [isBlank, isWhiteSpace_of_digit? digit, Bool.false_or, Bool.and_eq_false_iff,
    decide_eq_false_iff_not, decide_eq_false_iff_not]
  omega

section Trim

variable {before body behind : List Char}

/-- White space around a text that has none at its ends goes. -/
theorem trim_surrounded (front : ∀ c ∈ before, isWhiteSpace c = true)
    (back : ∀ c ∈ behind, isWhiteSpace c = true) (nonempty : body ≠ [])
    (solid : ∀ c ∈ body, isWhiteSpace c = false) : trim (before ++ body ++ behind) = body := by
  have keeps {s after : List Char} (some : s ≠ []) (plain : ∀ c ∈ s, isWhiteSpace c = false) :
      (s ++ after).dropWhile isWhiteSpace = s ++ after := by
    obtain ⟨c, rest, rfl⟩ := List.exists_cons_of_ne_nil some
    rw [List.cons_append, List.dropWhile_cons, if_neg (by simp [plain c List.mem_cons_self])]
  have turned : (body.reverse).dropWhile isWhiteSpace = body.reverse := by
    have kept := @keeps body.reverse [] (by simpa using nonempty) (by simpa using solid)
    rwa [List.append_nil] at kept
  rw [trim, List.append_assoc, List.dropWhile_append_of_pos front, keeps nonempty solid,
    List.reverse_append, List.dropWhile_append_of_pos (by simpa using back), turned,
    List.reverse_reverse]

/-- All that is trimmed off is white space at the ends. -/
theorem trim_split (s : List Char) : ∃ before behind, s = before ++ trim s ++ behind ∧
    (∀ c ∈ before, isWhiteSpace c = true) ∧ ∀ c ∈ behind, isWhiteSpace c = true := by
  refine ⟨s.takeWhile isWhiteSpace,
    ((s.dropWhile isWhiteSpace).reverse.takeWhile isWhiteSpace).reverse, ?_,
    fun c => List.mem_takeWhile_imp, fun c member => List.mem_takeWhile_imp (List.mem_reverse.mp member)⟩
  rw [trim, List.append_assoc, ← List.reverse_append, List.takeWhile_append_dropWhile,
    List.reverse_reverse, List.takeWhile_append_dropWhile]

end Trim

namespace Numeral

/-- Digits of any script with what each of them counts for. One underscore
may stand between two of them. -/
inductive Run : List Char → List Nat → Prop
  | last {c d} : digit? c = some d → Run [c] [d]
  | next {c d cs ds} : digit? c = some d → Run cs ds → Run (c :: cs) (d :: ds)
  | spaced {c d cs ds} : digit? c = some d → Run cs ds → Run (c :: '_' :: cs) (d :: ds)

/-- An optional sign, and whether the number is negative. -/
inductive Sign : List Char → Bool → Prop
  | absent : Sign [] false
  | plus : Sign ['+'] false
  | minus : Sign ['-'] true

/-- How an integer may be spelled: white space around an optional sign and a
run of digits in base ten, which are not too many. Underscores do not count. -/
inductive Spelling : List Char → Int → Prop
  | mk {before sign body behind : List Char} {negative : Bool} {ds : List Nat} :
      (∀ c ∈ before, isWhiteSpace c = true) → Sign sign negative → Run body ds →
      ds.length ≤ maxDigits → (∀ c ∈ behind, isWhiteSpace c = true) →
      Spelling (before ++ (sign ++ body) ++ behind) (signed negative (Nat.ofDigits 10 ds.reverse))

section Run

variable {s cs front body : List Char} {ds : List Nat} {negative : Bool}

/-- A run begins with a digit. -/
theorem Run.begins (run : Run cs ds) : ∃ c d rest, cs = c :: rest ∧ digit? c = some d := by
  cases run with
  | last digit => exact ⟨_, _, _, rfl, digit⟩
  | next digit _ => exact ⟨_, _, _, rfl, digit⟩
  | spaced digit _ => exact ⟨_, _, _, rfl, digit⟩

theorem Run.solid (run : Run cs ds) : ∀ c ∈ cs, isWhiteSpace c = false := by
  induction run with
  | last digit => simpa using isWhiteSpace_of_digit? digit
  | next digit _ ih => exact List.forall_mem_cons.mpr ⟨isWhiteSpace_of_digit? digit, ih⟩
  | spaced digit _ ih =>
    exact List.forall_mem_cons.mpr ⟨isWhiteSpace_of_digit? digit,
      List.forall_mem_cons.mpr ⟨by decide, ih⟩⟩

theorem Run.read (run : Run cs ds) : digits? cs = some ds := by
  induction run with
  | last digit => simp [digits?, digit]
  | next digit follows ih =>
    obtain ⟨next, value, rest, rfl, second⟩ := follows.begins
    have plain : next ≠ '_' := ne_of_digit? second (by decide)
    simp [digits?, digit, plain, ih]
  | spaced digit _ ih => simp [digits?, digit, ih]

/-- What is read as digits is a run of them. -/
theorem run_of_digits? (read : digits? cs = some ds) : Run cs ds := by
  fun_induction digits? cs generalizing ds with
  | case1 => cases read
  | case2 c =>
    obtain ⟨d, digit, rfl⟩ := Option.map_eq_some_iff.mp read
    exact .last digit
  | case3 c second rest spaced plain =>
    by_cases underscore : second = '_'
    · simp only [underscore, if_true, Option.bind_eq_bind, Option.bind_eq_some_iff, Option.pure_def] at read
      obtain ⟨d, digit, others, follows, same⟩ := read
      cases same
      rw [underscore]
      exact .spaced digit (spaced follows)
    · simp only [underscore, if_false, Option.bind_eq_bind, Option.bind_eq_some_iff, Option.pure_def] at read
      obtain ⟨d, digit, others, follows, same⟩ := read
      cases same
      exact .next digit (plain follows)

theorem digits?_eq_some_iff : digits? cs = some ds ↔ Run cs ds :=
  ⟨run_of_digits?, Run.read⟩

theorem Sign.split (sign : Sign front negative) (run : Run body ds) :
    splitSign (front ++ body) = (negative, body) := by
  obtain ⟨c, d, rest, rfl, digit⟩ := run.begins
  have minus : c ≠ '-' := ne_of_digit? digit (by decide)
  have plus : c ≠ '+' := ne_of_digit? digit (by decide)
  cases sign <;> simp [splitSign, minus, plus]

theorem Sign.solid (sign : Sign front negative) : ∀ c ∈ front, isWhiteSpace c = false := by
  cases sign with
  | absent => nofun
  | plus => exact List.forall_mem_singleton.mpr (by decide)
  | minus => exact List.forall_mem_singleton.mpr (by decide)

theorem sign_of_splitSign (split : splitSign s = (negative, body)) :
    ∃ front, Sign front negative ∧ s = front ++ body := by
  cases s with
  | nil =>
    cases split
    exact ⟨[], .absent, rfl⟩
  | cons c rest =>
    rw [splitSign] at split
    split at split
    · rename_i minus
      cases split
      exact ⟨['-'], .minus, by rw [minus]; rfl⟩
    · split at split
      · rename_i plus
        cases split
        exact ⟨['+'], .plus, by rw [plus]; rfl⟩
      · cases split
        exact ⟨[], .absent, rfl⟩

/-- The digits read from the highest on and from the lowest on make the same
number. -/
theorem ofDigits_eq (ds : List Nat) : ofDigits ds = Nat.ofDigits 10 ds.reverse := by
  induction ds using List.reverseRecOn with
  | nil => rfl
  | append_singleton ds d ih =>
    rw [List.reverse_concat, Nat.ofDigits_cons, ← ih, Nat.add_comm]
    simp [ofDigits]

end Run

section Spelling

variable {s : String} {n : Int}

/-- A sign and a run of digits are read as the number they spell, unless the
digits are too many. -/
theorem integer?_of_run {before sign body behind : List Char} {negative : Bool} {ds : List Nat}
    (whole : s.toList = before ++ (sign ++ body) ++ behind)
    (front : ∀ c ∈ before, isWhiteSpace c = true) (signs : Sign sign negative) (run : Run body ds)
    (back : ∀ c ∈ behind, isWhiteSpace c = true) :
    integer? s =
      if ds.length ≤ maxDigits then some (signed negative (Nat.ofDigits 10 ds.reverse)) else none := by
  have nonempty : sign ++ body ≠ [] := by
    obtain ⟨c, d, rest, rfl, _⟩ := run.begins
    simp
  have solid : ∀ c ∈ sign ++ body, isWhiteSpace c = false :=
    List.forall_mem_append.mpr ⟨signs.solid, run.solid⟩
  rw [integer?, whole, trim_surrounded front back nonempty solid, signs.split run]
  simp [run.read, ofDigits_eq]

theorem Spelling.read (spelling : Spelling s.toList n) : integer? s = some n := by
  generalize whole : s.toList = text at spelling
  obtain ⟨front, signs, run, few, back⟩ := spelling
  rw [integer?_of_run whole front signs run back, if_pos few]

theorem spelling_of_integer? (read : integer? s = some n) : Spelling s.toList n := by
  obtain ⟨before, behind, whole, front, back⟩ := trim_split s.toList
  rw [integer?] at read
  cases split : splitSign (trim s.toList) with
  | mk negative body =>
    obtain ⟨sign, signs, trimmed⟩ := sign_of_splitSign split
    simp only [split, Option.bind_eq_bind, Option.bind_eq_some_iff] at read
    obtain ⟨ds, digits, value⟩ := read
    split at value
    · rename_i few
      cases value
      rw [whole, trimmed, ofDigits_eq]
      exact .mk front signs (digits?_eq_some_iff.mp digits) few back
    · cases value

/-- A text is read as an integer exactly where it spells that integer. -/
theorem integer?_eq_some_iff : integer? s = some n ↔ Spelling s.toList n :=
  ⟨spelling_of_integer?, Spelling.read⟩

theorem integer?_eq_none_iff : integer? s = none ↔ ∀ n, ¬ Spelling s.toList n := by
  rw [Option.eq_none_iff_forall_ne_some]
  exact forall_congr' fun n => not_congr integer?_eq_some_iff

theorem Spelling.not_blank {text : List Char} (spelling : Spelling text n) :
    text.all isBlank = false := by
  obtain @⟨before, sign, body, behind, negative, ds, _, _, run, _, _⟩ := spelling
  obtain ⟨c, d, rest, rfl, digit⟩ := run.begins
  exact List.all_eq_false.mpr ⟨c, by simp, by simp [isBlank_of_digit? digit]⟩

end Spelling

end Numeral

end RuleForest
