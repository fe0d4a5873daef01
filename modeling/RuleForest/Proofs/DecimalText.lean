import RuleForest.Proofs.IntegerSpelling

namespace RuleForest

theorem digit?_digitChar : ∀ d < 10, digit? (Nat.digitChar d) = some d := by
  decide

namespace Numeral

theorem Run.concat {cs : List Char} {ds : List Nat} {c : Char} {d : Nat} (run : Run cs ds)
    (digit : digit? c = some d) : Run (cs ++ [c]) (ds ++ [d]) := by
  induction run with
  | last first => exact .next first (.last digit)
  | next first _ ih => exact .next first ih
  | spaced first _ ih => exact .spaced first ih

/-- The decimal digits of a number, without underscores, make that number. -/
theorem run_toDigits (n : Nat) : ∃ ds, Run (Nat.toDigits 10 n) ds ∧
    ds.length = (Nat.toDigits 10 n).length ∧ Nat.ofDigits 10 ds.reverse = n := by
  induction n using Nat.strongRecOn with
  | ind n ih =>
    by_cases small : n < 10
    · rw [Nat.toDigits_of_lt_base small]
      exact ⟨[n], .last (digit?_digitChar n small), rfl, Nat.ofDigits_singleton⟩
    · obtain ⟨ds, run, length, value⟩ := ih (n / 10) (by omega)
      have last := digit?_digitChar (n % 10) (Nat.mod_lt n (by decide))
      rw [Nat.toDigits_of_base_le (by decide) (by omega)]
      refine ⟨ds ++ [n % 10], run.concat last, by simp [length], ?_⟩
      rw [List.reverse_concat, Nat.ofDigits_cons, value]
      exact Nat.mod_add_div n 10

theorem isWritable_iff (n : Int) : isWritable n = true ↔ n.natAbs.repr.length ≤ maxDigits := by
  -- The limit stays a variable, so that the power is not evaluated.
  have few {limit : Nat} (some : 0 < limit) (n : Nat) : n < Nat.pow 10 limit ↔ n.repr.length ≤ limit :=
    (Nat.length_repr_le_iff some).symm
  exact decide_eq_true_iff.trans (few (by decide) n.natAbs)

/-- Reading and writing have the same limit: an integer is read from its
decimal text exactly if it may be written. -/
theorem integer?_repr_eq (n : Int) : integer? n.repr = if isWritable n then some n else none := by
  obtain ⟨ds, run, length, value⟩ := run_toDigits n.natAbs
  have digits : ds.length = n.natAbs.repr.length := by
    rw [length, ← Nat.toList_repr, String.length_toList]
  have read {sign : List Char} {negative : Bool} (signs : Sign sign negative)
      (whole : n.repr.toList = sign ++ Nat.toDigits 10 n.natAbs) (same : signed negative n.natAbs = n) :
      integer? n.repr = if isWritable n then some n else none := by
    rw [@integer?_of_run n.repr [] sign _ [] negative ds (by simpa using whole) nofun signs run nofun,
      digits, value, same]
    simp only [isWritable_iff]
  cases n with
  | ofNat n => exact read .absent (by simp [Int.repr]) rfl
  | negSucc n =>
    refine read .minus (by simp [Int.repr]) ?_
    rw [signed, if_pos rfl, Int.natAbs_negSucc, Int.neg_ofNat_succ]

theorem integer?_repr (n : Int) (short : n.natAbs.repr.length ≤ maxDigits) :
    integer? n.repr = some n := by
  rw [integer?_repr_eq, if_pos ((isWritable_iff n).mpr short)]

end Numeral

end RuleForest
