import RuleForest.Reading

namespace RuleForest

namespace Stream

/-- A new stream on which the cursor has taken some steps. Every cursor
that the steps of a stream can reach is one of these. -/
def placed (tokens : List Token) (c : Nat) : Stream :=
  (ofList tokens).advance c

theorem advance_succ (s : Stream) (steps : Nat) : s.advance (steps + 1) = (s.advance steps).next := by
  rw [advance_add]
  rfl

theorem advance_placed (tokens : List Token) (c steps : Nat) :
    (placed tokens c).advance steps = placed tokens (c + steps) :=
  (advance_add _ c steps).symm

theorem next_placed (tokens : List Token) (c : Nat) :
    (placed tokens c).next = placed tokens (c + 1) :=
  (advance_succ _ c).symm

theorem rewind_placed (tokens : List Token) (c : Nat) :
    (placed tokens c).rewind = placed tokens 0 := by
  simp only [placed, ofList, rewind, tokens_advance, advance]

@[simp] theorem tokens_placed (tokens : List Token) (c : Nat) :
    (placed tokens c).tokens = tokens :=
  tokens_advance _ c

/-- The cursor stays behind the last token once it is there. On no tokens it
starts before that place, and takes one step to it. -/
theorem index_placed (tokens : List Token) (c : Nat) :
    (placed tokens c).index =
      if tokens.length = 0 ∧ c = 0 then (-1 : Int) else ((min c tokens.length : Nat) : Int) := by
  induction c with
  | zero =>
    cases tokens with
    | nil => rfl
    | cons t rest => simp [placed, ofList, rewind, advance]
  | succ c ih =>
    rw [← next_placed, next, tokens_placed]
    by_cases inside : (placed tokens c).index < tokens.length
    · rw [if_pos inside]
      simp only [ih] at inside ⊢
      split at inside <;> split <;> omega
    · rw [if_neg inside]
      rw [ih] at inside ⊢
      split at inside <;> split <;> omega

theorem index_placed_of_le {tokens : List Token} {c : Nat} (within : c ≤ tokens.length)
    (started : tokens.length ≠ 0 ∨ c ≠ 0) : (placed tokens c).index = c := by
  rw [index_placed, if_neg (by omega)]
  omega

theorem index_placed_end {tokens : List Token} {c : Nat} (behind : tokens.length ≤ c)
    (started : c ≠ 0) : (placed tokens c).index = tokens.length := by
  rw [index_placed, if_neg (by omega)]
  omega

theorem following_placed (tokens : List Token) (c : Nat) :
    (placed tokens c).following = tokens.drop (c + 1) := by
  rw [following, tokens_placed, index_placed]
  by_cases inside : c ≤ tokens.length
  · split
    · rename_i empty
      simp [List.eq_nil_of_length_eq_zero empty.1]
    · congr 1
      omega
  · rw [List.drop_eq_nil_of_le (by split <;> omega), List.drop_eq_nil_of_le (by omega)]

theorem current_placed {tokens : List Token} {c : Nat} {t : Token} (found : tokens[c]? = some t) :
    (placed tokens c).current = .ok t := by
  have within : c < tokens.length := (List.getElem?_eq_some_iff.mp found).1
  have index := index_placed_of_le (Nat.le_of_lt within) (Or.inl (by omega))
  rw [current, index, if_neg (by omega), tokens_placed, Int.toNat_natCast, found]

theorem buildNode_placed (tokens : List Token) (c : Nat) (shape : Shape) (o : Options)
    (depth : Int) (first : Token) :
    (placed tokens c).buildNode shape o depth first =
      (placed tokens (c + (build shape o depth first (tokens.drop (c + 1))).advances),
        (build shape o depth first (tokens.drop (c + 1))).outcome) := by
  rw [buildNode, follow, following_placed, advance_placed]

theorem readNode_placed {tokens : List Token} {c : Nat} {t : Token} (found : tokens[c]? = some t)
    (o : Options) (depth : Int) :
    (placed tokens c).readNode o depth =
      (placed tokens (c + (read o depth t (tokens.drop (c + 1))).advances),
        (read o depth t (tokens.drop (c + 1))).outcome) := by
  rw [readNode, current_placed found]
  simp only [follow, following_placed, advance_placed]

theorem readForest_placed (tokens : List Token) (c : Nat) (o : Options) (depth : Int) :
    (placed tokens c).readForest o depth =
      (placed tokens (forest o depth tokens).advances, (forest o depth tokens).outcome) := by
  rw [readForest, follow, rewind_placed, advance_placed, tokens_placed, Nat.zero_add]

end Stream

/-- The tokens behind place `c` up to place `j`, which is one of them. -/
def Spans (tokens : List Token) (c j : Nat) (part : List Token) : Prop :=
  j < tokens.length ∧ (tokens.take (j + 1)).drop (c + 1) = part

theorem spans_iff {tokens : List Token} {c j : Nat} {part : List Token} (nonempty : part ≠ []) :
    Spans tokens c j part ↔ ∃ after, tokens.drop (c + 1) = part ++ after ∧ j = c + part.length := by
  have positive := List.length_pos_iff.mpr nonempty
  rw [Spans, List.drop_take]
  constructor
  · rintro ⟨within, same⟩
    have length := congrArg List.length same
    rw [List.length_take, List.length_drop] at length
    refine ⟨(tokens.drop (c + 1)).drop (j + 1 - (c + 1)), ?_, by omega⟩
    rw [← same, List.take_append_drop]
  · rintro ⟨after, split, rfl⟩
    have length := congrArg List.length split
    rw [List.length_append, List.length_drop] at length
    refine ⟨by omega, ?_⟩
    rw [split, List.take_left' (by omega)]

end RuleForest
