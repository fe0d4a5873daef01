import Mathlib.Data.List.TakeWhile
import RuleForest.ValueText

namespace RuleForest

/-- What a hexadecimal digit counts for. -/
def hexDigit (c : Char) : Nat :=
  if c.toNat < 0x61 then c.toNat - 0x30 else c.toNat - 0x57

def ofHex (digits : List Char) : Nat :=
  digits.foldl (fun n c => 16 * n + hexDigit c) 0

theorem hexDigit_digitChar : ∀ d < 16, hexDigit (Nat.digitChar d) = d := by
  decide

theorem ofHex_zeros (count : Nat) (digits : List Char) :
    ofHex (List.replicate count '0' ++ digits) = ofHex digits := by
  have nothing : ofHex (List.replicate count '0') = 0 := by
    induction count with
    | zero => rfl
    | succ count ih =>
      rw [ofHex] at ih ⊢
      rw [List.replicate_succ, List.foldl_cons]
      exact ih
  rw [ofHex] at nothing ⊢
  rw [List.foldl_append, nothing, ofHex]

theorem ofHex_toDigits (n : Nat) : ofHex (Nat.toDigits 16 n) = n := by
  induction n using Nat.strongRecOn with
  | ind n ih =>
    by_cases small : n < 16
    · rw [Nat.toDigits_of_lt_base small]
      simp [ofHex, hexDigit_digitChar n small]
    · have higher := ih (n / 16) (by omega)
      rw [ofHex] at higher ⊢
      rw [Nat.toDigits_of_base_le (by decide) (by omega), List.foldl_append, higher]
      simp only [List.foldl_cons, List.foldl_nil, hexDigit_digitChar (n % 16) (Nat.mod_lt n (by decide))]
      exact Nat.div_add_mod n 16

/-- No digit of any base up to sixteen breaks a line. -/
theorem newline_not_mem_toDigits {base : Nat} (above : 1 < base) (within : base ≤ 16) (n : Nat) :
    '\n' ∉ Nat.toDigits base n := by
  have solid : ∀ d < 16, '\n' ≠ Nat.digitChar d := by decide
  induction n using Nat.strongRecOn with
  | ind n ih =>
    by_cases small : n < base
    · rw [Nat.toDigits_of_lt_base small, List.mem_singleton]
      exact solid n (by omega)
    · have smaller : n / base < n := Nat.div_lt_self (by omega) above
      have last : n % base < base := Nat.mod_lt n (by omega)
      rw [Nat.toDigits_of_base_le above (by omega), List.mem_append, List.mem_singleton, not_or]
      exact ⟨ih _ smaller, solid _ (by omega)⟩

section Quoting

variable {mark c : Char} {s t : List Char}

theorem quoteMark_cases (s : List Char) : quoteMark s = '\'' ∨ quoteMark s = '"' := by
  unfold quoteMark
  split
  · exact Or.inr rfl
  · exact Or.inl rfl

/-- How many hexadecimal digits follow the letter of an escape. -/
def hexWidth? : Char → Option Nat
  | 'x' => some 2
  | 'u' => some 4
  | 'U' => some 8
  | _ => none

/-- What a letter without digits stands for behind a backslash. -/
def ofLetter : Char → Char
  | 'n' => '\n'
  | 'r' => '\r'
  | 't' => '\t'
  | c => c

/-- Reads one character back from the text that it is quoted as, and what
follows it. -/
def readQuoted : List Char → Option (Char × List Char)
  | [] => none
  | c :: rest =>
    if c = '\\' then
      match rest with
      | [] => none
      | letter :: more =>
        match hexWidth? letter with
        | some width => some (Char.ofNat (ofHex (more.take width)), more.drop width)
        | none => some (ofLetter letter, more)
    else some (c, rest)

theorem readQuoted_hexEscape {letter : Char} {width : Nat} (digits : hexWidth? letter = some width)
    (room : c.toNat < Nat.pow 16 width) (more : List Char) :
    readQuoted (hexEscape letter width c.toNat ++ more) = some (c, more) := by
  have positive : 0 < width := by
    rcases Nat.eq_zero_or_pos width with rfl | positive
    · revert digits
      unfold hexWidth?
      split <;> simp
    · exact positive
  have fits := (Nat.length_toDigits_le_iff (by decide) positive).mpr room
  have length : (List.replicate (width - (Nat.toDigits 16 c.toNat).length) '0' ++
      Nat.toDigits 16 c.toNat).length = width := by
    rw [List.length_append, List.length_replicate]
    omega
  rw [hexEscape, List.cons_append, List.cons_append, readQuoted, if_pos rfl]
  simp only [digits]
  rw [List.take_left' length, List.drop_left' length, ofHex_zeros, ofHex_toDigits, Char.ofNat_toNat]

/-- No text that a character is quoted as begins another one. -/
theorem readQuoted_quotedChar (marks : mark = '\'' ∨ mark = '"') (c : Char) (more : List Char) :
    readQuoted (quotedChar mark c ++ more) = some (c, more) := by
  unfold quotedChar
  split
  · rename_i special
    simp only [Bool.or_eq_true, decide_eq_true_eq] at special
    rcases special with rfl | rfl
    · rcases marks with rfl | rfl <;> rfl
    · rfl
  rename_i ordinary
  split
  · subst_vars
    rfl
  split
  · subst_vars
    rfl
  split
  · subst_vars
    rfl
  split
  · have solid : c ≠ '\\' := by
      rintro rfl
      simp at ordinary
    rw [List.singleton_append, readQuoted.eq_def]
    exact if_neg solid
  split
  · rename_i small
    exact readQuoted_hexEscape rfl small more
  split
  · rename_i small
    exact readQuoted_hexEscape rfl small more
  · have wide : c.toNat < Nat.pow 16 8 := c.val.toNat_lt
    exact readQuoted_hexEscape rfl wide more

theorem quotedChars_inj (same : quotedChars s = quotedChars t) : s = t := by
  have marks := quoteMark_cases s
  rw [quotedChars, quotedChars] at same
  obtain ⟨mark, rest⟩ := List.cons.inj same
  rw [← mark] at rest
  have bodies := List.append_cancel_right rest
  clear same rest mark
  generalize quoteMark s = mark at marks bodies
  induction s generalizing t with
  | nil =>
    cases t with
    | nil => rfl
    | cons d t =>
      have read := readQuoted_quotedChar marks d (t.flatMap (quotedChar mark))
      rw [← List.flatMap_cons, ← bodies] at read
      cases read
  | cons c s ih =>
    have first := readQuoted_quotedChar marks c (s.flatMap (quotedChar mark))
    rw [← List.flatMap_cons, bodies] at first
    cases t with
    | nil => cases first
    | cons d t =>
      rw [List.flatMap_cons, readQuoted_quotedChar marks d] at first
      simp only [Option.some.injEq, Prod.mk.injEq] at first
      obtain ⟨rfl, behind⟩ := first
      rw [ih behind.symm]

theorem quoted_inj {a b : String} (same : quoted a = quoted b) : a = b := by
  have chars := congrArg String.toList same
  simp only [quoted, String.toList_ofList] at chars
  exact String.toList_inj.mp (quotedChars_inj chars)

theorem newline_not_mem_hexEscape {letter : Char} (solid : letter ≠ '\n') (width code : Nat) :
    '\n' ∉ hexEscape letter width code := by
  have digits := newline_not_mem_toDigits (by decide) (Nat.le_refl 16) code
  simp [hexEscape, digits, solid.symm]

theorem newline_not_mem_quotedChar (marks : mark = '\'' ∨ mark = '"') (c : Char) :
    '\n' ∉ quotedChar mark c := by
  unfold quotedChar
  split
  · rename_i special
    simp only [Bool.or_eq_true, decide_eq_true_eq] at special
    rcases special with rfl | rfl
    · rcases marks with rfl | rfl <;> decide
    · decide
  split
  · decide
  rename_i solid
  split
  · decide
  split
  · decide
  split
  · rw [List.mem_singleton]
    exact fun same => solid same.symm
  split
  · exact newline_not_mem_hexEscape (by decide) _ _
  split
  · exact newline_not_mem_hexEscape (by decide) _ _
  · exact newline_not_mem_hexEscape (by decide) _ _

/-- A quoted text stands on one line. -/
theorem newline_not_mem_quoted (s : String) : '\n' ∉ (quoted s).toList := by
  have marks := quoteMark_cases s.toList
  have mark : '\n' ≠ quoteMark s.toList := by
    rcases marks with same | same <;> rw [same] <;> decide
  rw [quoted, String.toList_ofList, quotedChars, List.mem_cons, List.mem_append, List.mem_singleton]
  rintro (first | inside | last)
  · exact mark first
  · obtain ⟨c, _, here⟩ := List.mem_flatMap.mp inside
    exact newline_not_mem_quotedChar marks c here
  · exact mark last

end Quoting

section Numbers

variable {digits : List Char}

theorem FloatLayout.newline_not_mem_positional (solid : '\n' ∉ digits) (point : Int) :
    '\n' ∉ positional digits point := by
  have zero (count : Nat) : '\n' ∉ zeros count := by simp [zeros]
  unfold positional
  split
  · simp [zero, solid]
  · have whole : '\n' ∉ digits.take point.toNat := fun here => solid (List.mem_of_mem_take here)
    have fraction : '\n' ∉ digits.drop point.toNat := fun here => solid (List.mem_of_mem_drop here)
    simp only [List.mem_append, List.mem_cons, not_or]
    refine ⟨⟨whole, zero _⟩, by decide, ?_⟩
    split
    · decide
    · exact fraction

theorem FloatLayout.newline_not_mem_scientific (solid : '\n' ∉ digits) (layout : FloatLayout)
    (exponent : Int) : '\n' ∉ layout.scientific digits exponent := by
  have zero (count : Nat) : '\n' ∉ zeros count := by simp [zeros]
  have power := newline_not_mem_toDigits (by decide) (by decide : 10 ≤ 16) exponent.natAbs
  have first : '\n' ∉ digits.take 1 := fun here => solid (List.mem_of_mem_take here)
  have others : '\n' ∉ digits.drop 1 := fun here => solid (List.mem_of_mem_drop here)
  unfold scientific
  simp only [List.mem_append, List.mem_cons, not_or]
  refine ⟨⟨first, ?_⟩, by decide, ?_, zero _, power⟩
  · split
    · exact List.not_mem_nil
    · rw [List.mem_cons, not_or]
      exact ⟨by decide, others⟩
  · split <;> decide

theorem Binary64.newline_not_mem_text (x : Binary64) : '\n' ∉ x.text.toList := by
  cases x with
  | nan => decide
  | infinite negative => cases negative <;> decide
  | finite negative rank =>
    have magnitude : '\n' ∉ FloatLayout.rule.write (Binary64.shortest rank.val) := by
      have digits := newline_not_mem_toDigits (by decide) (by decide : 10 ≤ 16)
        (Binary64.shortest rank.val).digits
      have shortened : '\n' ∉ ((Nat.toDigits 10 (Binary64.shortest rank.val).digits).reverse.dropWhile
          (· = '0')).reverse := by
        intro here
        have inside := (List.dropWhile_sublist _).subset (List.mem_reverse.mp here)
        exact digits (List.mem_reverse.mp inside)
      simp only [FloatLayout.write]
      split
      · exact FloatLayout.newline_not_mem_positional shortened _
      · exact FloatLayout.newline_not_mem_scientific shortened _ _
    rw [text, String.toList_ofList]
    split
    · split
      · decide
      · rw [List.mem_cons, not_or]
        exact ⟨by decide, magnitude⟩
    · split
      · decide
      · exact magnitude

theorem newline_not_mem_repr (n : Int) : '\n' ∉ n.repr.toList := by
  have digits (m : Nat) := newline_not_mem_toDigits (by decide) (by decide : 10 ≤ 16) m
  cases n with
  | ofNat m => simpa [Int.repr] using digits m
  | negSucc m => simpa [Int.repr] using digits (m + 1)

end Numbers

/-- Neither a separator nor the parts that it stands between break the line. -/
theorem newline_not_mem_intercalate {separator : String} (solid : '\n' ∉ separator.toList)
    {parts : List String} (lines : ∀ part ∈ parts, '\n' ∉ part.toList) :
    '\n' ∉ (separator.intercalate parts).toList := by
  induction parts with
  | nil => simp
  | cons part rest ih =>
    obtain ⟨first, others⟩ := List.forall_mem_cons.mp lines
    cases rest with
    | nil => rwa [String.intercalate_singleton]
    | cons next rest =>
      rw [String.intercalate_cons_cons, String.toList_append, String.toList_append, List.mem_append,
        List.mem_append, not_or, not_or]
      exact ⟨⟨first, solid⟩, ih others⟩

namespace Value

mutual

/-- The written form of a value stands on one line. -/
theorem newline_not_mem_written : ∀ v : Value, '\n' ∉ v.written.toList
  | .null => by decide
  | .bool b => by cases b <;> decide
  | .int n => newline_not_mem_repr n
  | .float x => x.newline_not_mem_text
  | .text s => newline_not_mem_quoted s
  | .list items => by
    have inside := @newline_not_mem_intercalate ", " (by decide) _ (newline_not_mem_writtenAll items)
    rw [written, String.toList_append, String.toList_append, List.mem_append, List.mem_append, not_or,
      not_or]
    exact ⟨⟨by decide, inside⟩, by decide⟩

theorem newline_not_mem_writtenAll : ∀ items : List Value, ∀ text ∈ writtenAll items,
    '\n' ∉ text.toList
  | [] => nofun
  | item :: rest =>
    List.forall_mem_cons.mpr ⟨newline_not_mem_written item, newline_not_mem_writtenAll rest⟩

end

end Value

end RuleForest
