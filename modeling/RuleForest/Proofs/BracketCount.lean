import RuleForest.Enclosure

namespace RuleForest

/-- What a token adds to the count of open brackets of a shape. Brackets of
the other shape add nothing. -/
def Shape.weight (shape : Shape) (t : Token) : Int :=
  if t.kind = shape.opener then 1 else if t.kind = shape.closer then -1 else 0

/-- Openers less closers of one shape. -/
def Shape.tally (shape : Shape) : List Token → Int
  | [] => 0
  | t :: rest => shape.weight t + shape.tally rest

/-- The first place at which a count of open brackets comes down to zero.
Only the brackets of one shape are counted. -/
structure Shape.ClosesAt (shape : Shape) (count : Int) (tokens : List Token) (j : Nat) :
    Prop where
  within : j < tokens.length
  closed : count + shape.tally (tokens.take (j + 1)) = 0
  before : ∀ i, i < j → count + shape.tally (tokens.take (i + 1)) ≠ 0

theorem Shape.weight_opener {shape : Shape} {t : Token} (opens : t.kind = shape.opener) :
    shape.weight t = 1 := if_pos opens

theorem Shape.weight_closer {shape : Shape} {t : Token} (closes : t.kind = shape.closer) :
    shape.weight t = -1 := by
  have differs : t.kind ≠ shape.opener := fun opens =>
    shape.opener_ne_closer (opens.symm.trans closes)
  rw [weight, if_neg differs, if_pos closes]

theorem Shape.weight_other {shape : Shape} {t : Token} (opens : t.kind ≠ shape.opener)
    (closes : t.kind ≠ shape.closer) : shape.weight t = 0 := by
  rw [weight, if_neg opens, if_neg closes]

@[simp] theorem Shape.tally_nil (shape : Shape) : shape.tally [] = 0 := rfl

@[simp] theorem Shape.tally_cons (shape : Shape) (t : Token) (rest : List Token) :
    shape.tally (t :: rest) = shape.weight t + shape.tally rest := rfl

theorem Shape.closesAt_nil {shape : Shape} {count : Int} {j : Nat} :
    ¬ shape.ClosesAt count [] j :=
  fun closes => Nat.not_lt_zero j closes.within

/-- A count either comes down to zero on the first token, or later with
that token counted in. -/
theorem Shape.closesAt_cons {shape : Shape} {count : Int} {t : Token} {rest : List Token}
    {j : Nat} : shape.ClosesAt count (t :: rest) j ↔
      (j = 0 ∧ count + shape.weight t = 0) ∨
        ∃ i, j = i + 1 ∧ count + shape.weight t ≠ 0 ∧
          shape.ClosesAt (count + shape.weight t) rest i := by
  constructor
  · intro closes
    cases j with
    | zero =>
      have closed := closes.closed
      simp only [Nat.zero_add, List.take_succ_cons, List.take_zero, tally_cons, tally_nil,
        Int.add_zero] at closed
      exact Or.inl ⟨rfl, closed⟩
    | succ i =>
      have atFirst := closes.before 0 (Nat.succ_pos i)
      simp only [Nat.zero_add, List.take_succ_cons, List.take_zero, tally_cons, tally_nil,
        Int.add_zero] at atFirst
      refine Or.inr ⟨i, rfl, atFirst, Nat.lt_of_succ_lt_succ closes.within, ?_, ?_⟩
      · have closed := closes.closed
        rw [List.take_succ_cons, tally_cons] at closed
        omega
      · intro k earlier
        have still := closes.before (k + 1) (Nat.succ_lt_succ earlier)
        rw [List.take_succ_cons, tally_cons] at still
        omega
  · rintro (⟨rfl, closed⟩ | ⟨i, rfl, unfinished, closes⟩)
    · refine ⟨Nat.succ_pos _, ?_, fun i earlier => absurd earlier (Nat.not_lt_zero i)⟩
      simpa using closed
    · refine ⟨Nat.succ_lt_succ closes.within, ?_, ?_⟩
      · rw [List.take_succ_cons, tally_cons]
        have closed := closes.closed
        omega
      · intro k earlier
        rw [List.take_succ_cons, tally_cons]
        cases k with
        | zero => simpa using unfinished
        | succ k =>
          have still := closes.before k (Nat.lt_of_succ_lt_succ earlier)
          omega

/-- The scan for the closer takes the tokens before the place at which the
count comes down to zero. -/
theorem Shape.enclosed_eq_some_iff {shape : Shape} {level : Nat} {tokens inner : List Token} :
    shape.enclosed level tokens = some inner ↔
      ∃ j, shape.ClosesAt (level + 1) tokens j ∧ inner = tokens.take j := by
  induction tokens generalizing level inner with
  | nil => simp [enclosed, closesAt_nil]
  | cons t rest ih =>
    -- Unless the token closes the last open bracket, the scan goes on.
    have goesOn (next : Nat) (weight : (level : Int) + 1 + shape.weight t = next + 1) :
        (shape.enclosed next rest).map (t :: ·) = some inner ↔
          ∃ j, shape.ClosesAt (level + 1) (t :: rest) j ∧ inner = (t :: rest).take j := by
      simp only [Option.map_eq_some_iff, ih, closesAt_cons, weight]
      constructor
      · rintro ⟨tail, ⟨j, closes, rfl⟩, rfl⟩
        exact ⟨j + 1, Or.inr ⟨j, rfl, by omega, closes⟩, rfl⟩
      · rintro ⟨_, ⟨_, zero⟩ | ⟨i, rfl, _, closes⟩, rfl⟩
        · omega
        · exact ⟨rest.take i, ⟨i, closes, rfl⟩, rfl⟩
    rw [enclosed]
    split
    · rename_i opens
      exact goesOn (level + 1) (by rw [weight_opener opens]; omega)
    · rename_i differs
      split
      · rename_i closes
        have weight := weight_closer closes
        split
        · rename_i last
          subst last
          simp only [Option.some.injEq, closesAt_cons, weight]
          constructor
          · rintro rfl
            exact ⟨0, Or.inl ⟨rfl, rfl⟩, rfl⟩
          · rintro ⟨_, ⟨rfl, _⟩ | ⟨_, _, unfinished, _⟩, rfl⟩
            · rfl
            · exact absurd rfl unfinished
        · exact goesOn (level - 1) (by rw [weight]; omega)
      · rename_i other
        exact goesOn level (by rw [weight_other differs other]; omega)

theorem Shape.enclosed_eq_none_iff {shape : Shape} {level : Nat} {tokens : List Token} :
    shape.enclosed level tokens = none ↔ ∀ j, ¬ shape.ClosesAt (level + 1) tokens j := by
  rw [Option.eq_none_iff_forall_ne_some]
  constructor
  · intro never j closes
    exact never _ (enclosed_eq_some_iff.mpr ⟨j, closes, rfl⟩)
  · intro never inner found
    obtain ⟨j, closes, _⟩ := enclosed_eq_some_iff.mp found
    exact never j closes

theorem Shape.enclosed_append_iff {shape : Shape} {content rest : List Token} :
    shape.enclosed 0 (content ++ rest) = some content ↔
      shape.ClosesAt 1 (content ++ rest) content.length := by
  rw [enclosed_eq_some_iff]
  constructor
  · rintro ⟨i, closes, taken⟩
    have length := congrArg List.length taken
    rw [List.length_take_of_le (Nat.le_of_lt closes.within)] at length
    rwa [length]
  · intro closes
    exact ⟨content.length, closes, (List.take_left' rfl).symm⟩

/-- The place at which a count comes down to zero depends on no token
behind that place. -/
theorem Shape.ClosesAt.congr {shape : Shape} {count : Int} {tokens others : List Token} {j : Nat}
    (closes : shape.ClosesAt count tokens j) (same : others.take (j + 1) = tokens.take (j + 1)) :
    shape.ClosesAt count others j := by
  have within := closes.within
  have lengths := congrArg List.length same
  rw [List.length_take, List.length_take] at lengths
  refine ⟨by omega, same ▸ closes.closed, ?_⟩
  intro i earlier
  have shorter := congrArg (List.take (i + 1)) same
  rw [List.take_take, List.take_take, Nat.min_eq_left (by omega)] at shorter
  exact shorter ▸ closes.before i earlier

theorem Shape.ClosesAt.append {shape : Shape} {count : Int} {tokens : List Token} {j : Nat}
    (closes : shape.ClosesAt count tokens j) (more : List Token) :
    shape.ClosesAt count (tokens ++ more) j :=
  closes.congr (List.take_append_of_le_length closes.within)

theorem Shape.ClosesAt.unique {shape : Shape} {count : Int} {tokens : List Token} {i j : Nat}
    (first : shape.ClosesAt count tokens i) (second : shape.ClosesAt count tokens j) : i = j := by
  rcases Nat.lt_trichotomy i j with earlier | same | later
  · exact absurd first.closed (second.before i earlier)
  · exact same
  · exact absurd second.closed (first.before j later)

/-- The token on which a positive count comes down to zero is a closer. -/
theorem Shape.ClosesAt.closer {shape : Shape} {count : Int} {tokens : List Token} {j : Nat}
    (closes : shape.ClosesAt count tokens j) (positive : 0 < count) :
    ∃ closer after, closer.kind = shape.closer ∧ tokens = tokens.take j ++ closer :: after := by
  induction tokens generalizing count j with
  | nil => exact absurd closes closesAt_nil
  | cons t rest ih =>
    have least : -1 ≤ shape.weight t := by unfold weight; split <;> (try split) <;> omega
    rcases closesAt_cons.mp closes with ⟨rfl, closed⟩ | ⟨i, rfl, unfinished, later⟩
    · refine ⟨t, rest, ?_, rfl⟩
      apply Decidable.byContradiction
      intro other
      have light : 0 ≤ shape.weight t := by
        unfold weight
        split
        · decide
        · exact Int.le_refl 0
      omega
    · obtain ⟨closer, after, kind, whole⟩ := ih later (by omega)
      exact ⟨closer, after, kind, by rw [List.take_succ_cons, List.cons_append, ← whole]⟩

/-- A found content is followed by a closer, and whatever follows that
closer may be exchanged. -/
theorem Shape.enclosed_split {shape : Shape} {tokens inner : List Token}
    (found : shape.enclosed 0 tokens = some inner) :
    ∃ closer after, closer.kind = shape.closer ∧ tokens = inner ++ closer :: after ∧
      ∀ others, shape.enclosed 0 (inner ++ closer :: others) = some inner := by
  obtain ⟨j, closes, rfl⟩ := enclosed_eq_some_iff.mp found
  obtain ⟨closer, after, kind, whole⟩ := closes.closer (by decide)
  have length : (tokens.take j).length = j := List.length_take_of_le (Nat.le_of_lt closes.within)
  refine ⟨closer, after, kind, whole, ?_⟩
  intro others
  have upTo (tail : List Token) :
      (tokens.take j ++ closer :: tail).take (j + 1) = tokens.take j ++ [closer] := by
    rw [List.take_append, length, List.take_of_length_le (by omega), Nat.add_sub_cancel_left]
    rfl
  refine enclosed_eq_some_iff.mpr ⟨j, closes.congr ?_, ?_⟩
  · rw [upTo, ← upTo after, ← whole]
  · rw [List.take_append_of_le_length (Nat.le_of_eq length.symm), List.take_take, Nat.min_self]

/-- Tokens that are read past without closing the structure are read past
whatever comes behind them. -/
theorem Shape.enclosed_extends {shape : Shape} {level : Nat} {passed rest more other inner : List Token}
    (found : shape.enclosed level (passed ++ rest) = some (passed ++ more))
    (again : shape.enclosed level (passed ++ other) = some inner) :
    ∃ tail, inner = passed ++ tail := by
  obtain ⟨i, first, taken⟩ := enclosed_eq_some_iff.mp found
  obtain ⟨j, second, rfl⟩ := enclosed_eq_some_iff.mp again
  have far : passed.length ≤ i := by
    have lengths := congrArg List.length taken
    rw [List.length_append, List.length_take] at lengths
    omega
  by_cases early : j < passed.length
  · have moved : shape.ClosesAt (level + 1) (passed ++ rest) j := by
      refine second.congr ?_
      rw [List.take_append_of_le_length early, List.take_append_of_le_length early]
    have same := moved.unique first
    omega
  · refine ⟨other.take (j - passed.length), ?_⟩
    rw [List.take_append, List.take_of_length_le (by omega)]

/-- A run of tokens that the scan for a closer passes over at any level. -/
def Shape.Balanced (shape : Shape) (tokens : List Token) : Prop :=
  ∀ level after,
    shape.enclosed level (tokens ++ after) = (shape.enclosed level after).map (tokens ++ ·)

theorem Shape.balanced_nil (shape : Shape) : shape.Balanced [] := by
  intro level after
  simp

theorem Shape.Balanced.append {shape : Shape} {first second : List Token}
    (left : shape.Balanced first) (right : shape.Balanced second) :
    shape.Balanced (first ++ second) := by
  intro level after
  rw [List.append_assoc, left, right, Option.map_map]
  congr 1
  funext tokens
  exact (List.append_assoc first second tokens).symm

theorem Shape.balanced_singleton {shape : Shape} {t : Token} (opens : t.kind ≠ shape.opener)
    (closes : t.kind ≠ shape.closer) : shape.Balanced [t] := by
  intro level after
  rw [List.singleton_append, enclosed, if_neg opens, if_neg closes]
  rfl

theorem Shape.balanced_of_forall {shape : Shape} {tokens : List Token}
    (others : ∀ t ∈ tokens, t.kind ≠ shape.opener ∧ t.kind ≠ shape.closer) :
    shape.Balanced tokens := by
  induction tokens with
  | nil => exact shape.balanced_nil
  | cons t rest ih =>
    have here := others t List.mem_cons_self
    exact (balanced_singleton here.1 here.2).append
      (ih fun later member => others later (List.mem_cons_of_mem t member))

theorem Shape.Balanced.enclose {shape : Shape} {opener closer : Token} {inner : List Token}
    (balanced : shape.Balanced inner) (opens : opener.kind = shape.opener)
    (closes : closer.kind = shape.closer) : shape.Balanced (opener :: (inner ++ [closer])) := by
  intro level after
  have differs : closer.kind ≠ shape.opener := fun same =>
    shape.opener_ne_closer (same.symm.trans closes)
  rw [List.cons_append, List.append_assoc, enclosed, if_pos opens, balanced, List.singleton_append,
    enclosed, if_neg differs, if_pos closes, if_neg (Nat.succ_ne_zero level),
    Nat.add_sub_cancel, Option.map_map, Option.map_map]
  congr 1
  funext tokens
  simp

/-- A balanced run before a closer is the content that the scan finds. -/
theorem Shape.Balanced.enclosed {shape : Shape} {closer : Token} {inner : List Token}
    (balanced : shape.Balanced inner) (closes : closer.kind = shape.closer) (after : List Token) :
    shape.enclosed 0 (inner ++ closer :: after) = some inner := by
  have differs : closer.kind ≠ shape.opener := fun same =>
    shape.opener_ne_closer (same.symm.trans closes)
  rw [balanced, Shape.enclosed, if_neg differs, if_pos closes, if_pos rfl]
  simp

end RuleForest
