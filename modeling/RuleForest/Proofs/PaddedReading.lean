import Mathlib.Order.Monotone.Basic
import RuleForest.Proofs.ReadingSteps
import RuleForest.Proofs.TraversalPartition

namespace RuleForest

/-- A token that is passed over and that no count of brackets sees. -/
structure Options.Pads (o : Options) (t : Token) : Prop where
  ignored : o.ignores t.group = true
  other : t.kind ∉ [Kind.openSquare, .closeSquare, .openParen, .closeParen]

/-- A list of tokens with padding put between them. The function takes the
place of each token, and the end of the list, to where it is then. -/
inductive Options.Padded (o : Options) : List Token → List Token → (Nat → Nat) → Prop
  | nil : Padded o [] [] id
  | keep {tokens padded k} (t) : Padded o tokens padded k →
      Padded o (t :: tokens) (t :: padded) (placesBehind 1 k)
  | pad {tokens padded k t} : o.Pads t → Padded o tokens padded k →
      Padded o tokens (t :: padded) (fun i => 1 + k i)

theorem Options.Pads.weight {o : Options} {t : Token} (padding : o.Pads t) (shape : Shape) :
    shape.weight t = 0 := by
  have other := padding.other
  simp only [List.mem_cons, List.not_mem_nil, or_false, not_or] at other
  cases shape with
  | array => exact Shape.weight_other other.1 other.2.1
  | call => exact Shape.weight_other other.2.2.1 other.2.2.2

section Places

variable {o : Options} {tokens padded before after : List Token} {k : Nat → Nat} {t : Token}

theorem Options.Padded.last (pads : o.Padded tokens padded k) : k tokens.length = padded.length := by
  induction pads with
  | nil => rfl
  | keep t _ ih => simp only [List.length_cons, placesBehind, ih, Nat.add_comm]
  | pad _ _ ih => simp only [List.length_cons, ih, Nat.add_comm]

theorem Options.Padded.skips (pads : o.Padded tokens padded k) (skips : o.Skips tokens) :
    o.Skips padded := by
  induction pads with
  | nil => exact skips
  | keep t _ ih =>
    obtain ⟨ignored, further⟩ := List.forall_mem_cons.mp skips
    exact (ih further).cons ignored
  | pad padding _ ih => exact (ih skips).cons padding.ignored

/-- Around each token of a padded list stand the padded tokens before it
and the padded tokens behind it. -/
theorem Options.Padded.split (pads : o.Padded (before ++ t :: after) padded k) :
    ∃ front back places later, padded = front ++ t :: back ∧ o.Padded before front places ∧
      o.Padded after back later ∧ k before.length = front.length ∧
      ∀ i, k (before.length + 1 + i) = front.length + 1 + later i := by
  generalize whole : before ++ t :: after = tokens at pads
  induction pads generalizing before with
  | nil => simp at whole
  | @keep tokens padded k u pads ih =>
    cases before with
    | nil =>
      obtain ⟨rfl, rfl⟩ := List.cons.inj whole
      refine ⟨[], padded, id, k, rfl, .nil, pads, rfl, ?_⟩
      intro i
      rw [List.length_nil, Nat.zero_add, Nat.add_comm 1 i, placesBehind, Nat.add_comm 1]
    | cons v before =>
      obtain ⟨rfl, inner⟩ := List.cons.inj whole
      obtain ⟨front, back, places, later, rfl, first, second, place, shift⟩ := ih inner
      refine ⟨v :: front, back, _, later, rfl, .keep v first, second, ?_, ?_⟩
      · simp only [List.length_cons, placesBehind, place, Nat.add_comm]
      · intro i
        have behind := shift i
        rw [List.length_cons, List.length_cons, Nat.add_right_comm before.length 1 1,
          Nat.add_right_comm _ 1 i, placesBehind, behind]
        omega
  | pad padding pads ih =>
    obtain ⟨front, back, places, later, rfl, first, second, place, shift⟩ := ih whole
    refine ⟨_ :: front, back, _, later, rfl, .pad padding first, second, ?_, ?_⟩
    · simp only [List.length_cons, place, Nat.add_comm]
    · intro i
      simp only [List.length_cons, shift]
      omega

theorem Options.Padded.uncons (pads : o.Padded (t :: after) padded k) :
    ∃ gap back later, padded = gap ++ t :: back ∧ o.Skips gap ∧ o.Padded after back later := by
  rw [← List.nil_append (t :: after)] at pads
  obtain ⟨gap, back, places, later, rfl, before, behind, _⟩ := pads.split
  exact ⟨gap, back, later, rfl, before.skips o.skips_nil, behind⟩

/-- Behind a token and behind its new place stand the same tokens, padded. -/
theorem Options.Padded.behind (pads : o.Padded tokens padded k) {i : Nat} (inside : i < tokens.length) :
    ∃ later, o.Padded (tokens.drop (i + 1)) (padded.drop (k i + 1)) later ∧
      ∀ n, k (i + 1 + n) = k i + 1 + later n := by
  have whole : tokens = tokens.take i ++ tokens[i] :: tokens.drop (i + 1) := by simp
  have length := List.length_take_of_le (Nat.le_of_lt inside)
  rw [whole] at pads
  obtain ⟨front, back, _, later, rfl, _, behind, place, shift⟩ := pads.split
  rw [length] at place shift
  have dropped : (front ++ tokens[i] :: back).drop (front.length + 1) = back := by
    rw [← List.drop_drop, List.drop_left, List.drop_succ_cons, List.drop_zero]
  refine ⟨later, ?_, ?_⟩
  · rwa [place, dropped]
  · intro n
    rw [place, shift]

theorem Options.Padded.getElem?_place (pads : o.Padded tokens padded k) (i : Nat) :
    padded[k i]? = tokens[i]? := by
  induction pads generalizing i with
  | nil => rfl
  | @keep tokens padded k t _ ih =>
    cases i with
    | zero => rfl
    | succ i => rw [placesBehind, Nat.add_comm, List.getElem?_cons_succ, List.getElem?_cons_succ, ih]
  | @pad tokens padded k t _ _ ih =>
    change (t :: padded)[1 + k i]? = tokens[i]?
    rw [Nat.add_comm, List.getElem?_cons_succ, ih]

theorem Options.Padded.place_lt (pads : o.Padded tokens padded k) {i : Nat}
    (inside : i < tokens.length) : k i < padded.length := by
  have place := pads.getElem?_place i
  rw [List.getElem?_eq_getElem inside] at place
  exact (List.getElem?_eq_some_iff.mp place).1

theorem Options.Padded.place_le (pads : o.Padded tokens padded k) {i : Nat}
    (within : i ≤ tokens.length) : k i ≤ padded.length := by
  rcases Nat.lt_or_eq_of_le within with inside | rfl
  · exact Nat.le_of_lt (pads.place_lt inside)
  · exact Nat.le_of_eq pads.last

theorem Options.Padded.strictMono (pads : o.Padded tokens padded k) : StrictMono k := by
  induction pads with
  | nil => exact strictMono_id
  | keep t _ ih =>
    refine strictMono_nat_of_lt_succ fun i => ?_
    cases i with
    | zero => exact Nat.lt_add_right _ Nat.zero_lt_one
    | succ i => exact Nat.add_lt_add_left (ih (Nat.lt_succ_self i)) 1
  | pad _ _ ih => exact fun i j before => Nat.add_lt_add_left (ih before) 1

/-- The place at which a count of open brackets comes down to zero is that of
the same token. -/
theorem Options.Padded.closesAt_iff (pads : o.Padded tokens padded k) {shape : Shape}
    {count : Int} (opened : count ≠ 0) {j : Nat} :
    shape.ClosesAt count padded j ↔ ∃ i, j = k i ∧ shape.ClosesAt count tokens i := by
  induction pads generalizing count j with
  | nil =>
    constructor
    · intro closes
      exact absurd closes Shape.closesAt_nil
    · rintro ⟨i, _, closes⟩
      exact absurd closes Shape.closesAt_nil
  | @keep tokens padded k t pads ih =>
    rw [Shape.closesAt_cons]
    constructor
    · rintro (⟨rfl, closed⟩ | ⟨j, rfl, unfinished, closes⟩)
      · exact ⟨0, rfl, Shape.closesAt_cons.mpr (Or.inl ⟨rfl, closed⟩)⟩
      · obtain ⟨i, rfl, inner⟩ := (ih unfinished).mp closes
        exact ⟨i + 1, Nat.add_comm _ 1, Shape.closesAt_cons.mpr (Or.inr ⟨i, rfl, unfinished, inner⟩)⟩
    · rintro ⟨i, rfl, closes⟩
      rcases Shape.closesAt_cons.mp closes with ⟨rfl, closed⟩ | ⟨i, rfl, unfinished, inner⟩
      · exact Or.inl ⟨rfl, closed⟩
      · exact Or.inr ⟨k i, Nat.add_comm 1 _, unfinished, (ih unfinished).mpr ⟨i, rfl, inner⟩⟩
  | @pad tokens padded k t padding pads ih =>
    rw [Shape.closesAt_cons, padding.weight, Int.add_zero]
    constructor
    · rintro (⟨_, closed⟩ | ⟨j, rfl, _, closes⟩)
      · exact absurd closed opened
      · obtain ⟨i, rfl, inner⟩ := (ih opened).mp closes
        exact ⟨i, Nat.add_comm _ 1, inner⟩
    · rintro ⟨i, rfl, closes⟩
      exact Or.inr ⟨k i, Nat.add_comm 1 _, opened, (ih opened).mpr ⟨i, rfl, closes⟩⟩

end Places

/-- How far the cursor moves over some tokens and over the same tokens with
padding: not at all, or to one and the same token, or to the end. -/
def SameMove (rest : List Token) (k : Nat → Nat) (n m : Nat) : Prop :=
  (n = 0 ∧ m = 0) ∨ ∃ i, i ≤ rest.length ∧ n = i + 1 ∧ m = k i + 1

section Reading

variable {o : Options} {depth : Int} {shape : Shape} {slot : Slot} {first t : Token}
  {rest tokens padded inner : List Token} {k : Nat → Nat} {n m : Nat}

/-- Behind two like moves stand the same tokens, padded, and a place there
that an own token had before is still that of an own token. -/
theorem Options.Padded.drop (pads : o.Padded rest padded k) (moves : SameMove rest k n m) :
    ∃ places, o.Padded (rest.drop n) (padded.drop m) places ∧
      ∀ i j, m + i = k j → ∃ later, i = places later := by
  rcases moves with ⟨rfl, rfl⟩ | ⟨i, within, rfl, rfl⟩
  · refine ⟨k, pads, fun i j place => ⟨j, ?_⟩⟩
    rwa [Nat.zero_add] at place
  · rcases Nat.lt_or_eq_of_le within with inside | rfl
    · obtain ⟨later, behind, shift⟩ := pads.behind inside
      refine ⟨later, behind, fun n j place => ⟨j - (i + 1), ?_⟩⟩
      have further : i < j := pads.strictMono.lt_iff_lt.mp (by omega)
      have shifted := shift (j - (i + 1))
      rw [Nat.add_sub_cancel' further] at shifted
      omega
    · rw [pads.last, List.drop_eq_nil_of_le (Nat.le_succ _), List.drop_eq_nil_of_le (Nat.le_succ _)]
      exact ⟨id, .nil, fun i _ _ => ⟨i, rfl⟩⟩

theorem Options.Padded.enclosed_none (pads : o.Padded tokens padded k)
    (none : shape.enclosed 0 tokens = none) : shape.enclosed 0 padded = .none := by
  refine Shape.enclosed_eq_none_iff.mpr fun j closes => ?_
  obtain ⟨i, _, inside⟩ := (pads.closesAt_iff (by decide)).mp closes
  exact Shape.enclosed_eq_none_iff.mp none i inside

/-- What padded brackets enclose is what they enclose, padded. -/
theorem Options.Padded.enclosed_some (pads : o.Padded tokens padded k)
    (found : shape.enclosed 0 tokens = some inner) :
    ∃ content places, shape.enclosed 0 padded = some content ∧ o.Padded inner content places ∧
      content.length = k inner.length := by
  have closes : shape.ClosesAt 1 tokens inner.length := by
    obtain ⟨closer, after, _, rfl, _⟩ := Shape.enclosed_split found
    exact Shape.enclosed_append_iff.mp found
  obtain ⟨closer, after, _, rfl, _⟩ := Shape.enclosed_split found
  have moved := (pads.closesAt_iff (by decide)).mpr ⟨_, rfl, closes⟩
  obtain ⟨front, back, places, later, rfl, same, _, place, _⟩ := pads.split
  rw [place] at moved
  exact ⟨front, places, Shape.enclosed_append_iff.mpr moved, same, place.symm⟩

/-- The opening bracket behind the name of a call is found behind padding. -/
theorem Lead.padding {lead tail : List Token} (leads : Lead o shape lead)
    (pads : o.Padded (lead ++ tail) padded k) :
    ∃ front back later, padded = front ++ back ∧ Lead o shape front ∧ o.Padded tail back later ∧
      ∀ i, k (lead.length + i) = front.length + later i := by
  cases leads with
  | array => exact ⟨[], padded, k, rfl, .array, pads, fun i => by simp⟩
  | @call gap opener skips opens seen =>
    rw [List.append_assoc, List.singleton_append] at pads
    obtain ⟨front, back, places, later, rfl, before, behind, _, shift⟩ := pads.split
    refine ⟨front ++ [opener], back, later, by simp, .call (before.skips skips) opens seen, behind, ?_⟩
    intro i
    rw [List.length_append, List.length_append, List.length_singleton, shift]

/-- A structure is read on padded tokens as without the padding, if its
content is. -/
theorem Options.Padded.build (pads : o.Padded rest padded k)
    (content : ∀ extent, shape.locate o depth first rest = .ok extent →
      ∀ inner places, o.Padded extent.inner inner places →
        elements shape o (depth + 1) .first inner =
          elements shape o (depth + 1) .first extent.inner) :
    (RuleForest.build shape o depth first padded).outcome =
        (RuleForest.build shape o depth first rest).outcome ∧
      SameMove rest k (RuleForest.build shape o depth first rest).advances
        (RuleForest.build shape o depth first padded).advances := by
  by_cases deep : o.maxDepth ≤ depth
  · rw [build_of_error (Shape.locate_of_deep deep shape first rest),
      build_of_error (Shape.locate_of_deep deep shape first padded)]
    exact ⟨rfl, Or.inl ⟨rfl, rfl⟩⟩
  have shallow : depth < o.maxDepth := Int.not_le.mp deep
  rcases shape.lead_cases o rest with ⟨lead, tail, leads, rfl⟩ | ⟨rfl, skips⟩ |
    ⟨rfl, gap, t, after, rfl, skips, seen, other⟩
  · obtain ⟨front, back, later, rfl, ahead, behind, shift⟩ := leads.padding pads
    have located := Shape.locate_of_lead shallow leads first tail
    have again := Shape.locate_of_lead shallow ahead first back
    cases enclosing : shape.enclosed 0 tail with
    | none =>
      rw [enclosing] at located
      rw [behind.enclosed_none enclosing] at again
      rw [build_of_error located, build_of_error again]
      refine ⟨rfl, Or.inr ⟨(lead ++ tail).length, Nat.le_refl _, rfl, ?_⟩⟩
      rw [pads.last]
      rfl
    | some inner =>
      obtain ⟨around, places, found, same, length⟩ := behind.enclosed_some enclosing
      have shorter := Shape.length_enclosed enclosing
      rw [enclosing] at located
      rw [found] at again
      rw [build_of_ok located, build_of_ok again, content _ located around places same]
      refine ⟨rfl, Or.inr ⟨lead.length + inner.length, ?_, rfl, ?_⟩⟩
      · rw [List.length_append]
        omega
      · rw [shift, ← length, Extent.advances]
  · rw [build_of_error (Shape.locate_of_skips shallow skips first),
      build_of_error (Shape.locate_of_skips shallow (pads.skips skips) first)]
    refine ⟨rfl, Or.inr ⟨rest.length, Nat.le_refl _, rfl, ?_⟩⟩
    rw [pads.last]
    rfl
  · obtain ⟨front, back, places, later, rfl, same, _, place, _⟩ := pads.split
    have passed := same.skips skips
    rw [build_of_error (Shape.locate_of_other shallow skips seen other first),
      build_of_error (Shape.locate_of_other shallow passed seen other first)]
    refine ⟨rfl, Or.inr ⟨gap.length, by simp, rfl, ?_⟩⟩
    rw [place]

/-- A node is read on padded tokens as without the padding, if its content is. -/
theorem Options.Padded.read (pads : o.Padded rest padded k)
    (content : ∀ nested extent, t.kind.shape? = some nested →
      nested.locate o depth t rest = .ok extent →
      ∀ inner places, o.Padded extent.inner inner places →
        elements nested o (depth + 1) .first inner =
          elements nested o (depth + 1) .first extent.inner) :
    (RuleForest.read o depth t padded).outcome = (RuleForest.read o depth t rest).outcome ∧
      SameMove rest k (RuleForest.read o depth t rest).advances
        (RuleForest.read o depth t padded).advances := by
  rcases t.cases_kind with string | ⟨nested, begins⟩ | plain
  · rw [read_of_string string, read_of_string string]
    exact ⟨rfl, Or.inl ⟨rfl, rfl⟩⟩
  · rw [read_of_shape begins, read_of_shape begins]
    exact pads.build fun extent found => content nested extent begins found
  · rw [read_of_plain plain, read_of_plain plain]
    exact ⟨rfl, Or.inl ⟨rfl, rfl⟩⟩

/-- Elements are read alike with padding anywhere between their tokens, on
success and on failure. -/
theorem elements_padded (pads : o.Padded tokens padded k) :
    elements shape o depth slot padded = elements shape o depth slot tokens := by
  induction shape, depth, slot, tokens using elements_induction o generalizing padded k with
  | nil shape depth slot =>
    have gap := @elements_gap shape o depth slot padded (pads.skips o.skips_nil) []
    rwa [List.append_nil] at gap
  | skip shape depth slot t rest ignored ih =>
    obtain ⟨gap, back, later, rfl, skips, behind⟩ := pads.uncons
    rw [elements_gap skips, elements_skip ignored, elements_skip ignored,
      ih behind]
  | comma shape depth slot t rest seen comma ih =>
    obtain ⟨gap, back, later, rfl, skips, behind⟩ := pads.uncons
    rw [elements_gap skips, elements_comma seen comma,
      elements_comma seen comma, ih behind]
  | unexpected shape depth slot t rest seen comma starts =>
    obtain ⟨gap, back, later, rfl, skips, behind⟩ := pads.uncons
    rw [elements_gap skips, elements_unexpected seen comma starts,
      elements_unexpected seen comma starts]
  | missing shape depth t rest seen comma starts =>
    obtain ⟨gap, back, later, rfl, skips, behind⟩ := pads.uncons
    rw [elements_gap skips, elements_missing seen comma starts,
      elements_missing seen comma starts]
  | item shape depth slot t rest seen comma starts free inside ih =>
    obtain ⟨gap, back, later, rfl, skips, behind⟩ := pads.uncons
    obtain ⟨same, moves⟩ := behind.read fun nested extent begins found _ _ content =>
      inside nested extent begins found content
    obtain ⟨further, later, _⟩ := behind.drop moves
    rw [elements_gap skips, elements_item seen comma starts free,
      elements_item seen comma starts free, same, ih later]

end Reading

/-- Padding behind the cursor changes nothing about the structure that is
read there: not its nodes, not its fault, not what is logged. The cursor ends
on the same token as without it, or at the end as it does without it. -/
theorem Stream.buildNode_padded {o : Options} {tokens padded : List Token} {k : Nat → Nat} {c : Nat}
    (pads : o.Padded tokens padded k) (inside : c < tokens.length) (here : k c = c) (shape : Shape)
    (depth : Int) (first : Token) :
    ((placed padded c).buildNode shape o depth first).2 =
        ((placed tokens c).buildNode shape o depth first).2 ∧
      ∃ j, ((placed tokens c).buildNode shape o depth first).1.index = (j : Nat) ∧
        ((placed padded c).buildNode shape o depth first).1.index = (k j : Nat) ∧
        ((j < tokens.length ∧ padded[k j]? = tokens[j]?) ∨ (j = tokens.length ∧ k j = padded.length)) := by
  obtain ⟨later, behind, shift⟩ := pads.behind inside
  rw [here] at behind shift
  obtain ⟨outcome, moves⟩ := @Options.Padded.build o depth shape first _ _ later behind
    fun _ _ _ _ content => elements_padded content
  rw [buildNode_placed, buildNode_placed]
  refine ⟨outcome, ?_⟩
  have started := pads.place_lt inside
  rcases moves with ⟨stays, again⟩ | ⟨i, within, moved, further⟩
  · refine ⟨c, ?_, ?_, Or.inl ⟨inside, pads.getElem?_place c⟩⟩
    · rw [stays, Nat.add_zero, index_placed_of_le (Nat.le_of_lt inside) (by omega)]
    · rw [again, Nat.add_zero, here, index_placed_of_le (by omega) (by omega)]
  · have place : k (c + 1 + i) = c + (later i + 1) := by
      have shifted := shift i
      omega
    rw [List.length_drop] at within
    have bound := pads.place_le (show c + 1 + i ≤ tokens.length by omega)
    refine ⟨c + 1 + i, ?_, ?_, ?_⟩
    · rw [moved, index_placed_of_le (by omega) (by omega)]
      omega
    · rw [further, index_placed_of_le (by omega) (by omega), place]
    · rcases Nat.lt_or_eq_of_le (show c + 1 + i ≤ tokens.length by omega) with before | atEnd
      · exact Or.inl ⟨before, pads.getElem?_place _⟩
      · exact Or.inr ⟨atEnd, atEnd ▸ pads.last⟩

/-- Space behind the name of a call, and a comment in its brackets. -/
theorem Stream.buildNode_padded_call :
    ((placed [.bare .function, .bare .space, .bare .openParen, .bare .comment, .bare .closeParen]
        0).buildNode .call .standard 0 (.bare .function)).2 =
      ((placed [.bare .function, .bare .openParen, .bare .closeParen] 0).buildNode .call .standard 0
        (.bare .function)).2 := by
  have space : Options.standard.Pads (.bare .space) := ⟨rfl, by decide⟩
  have comment : Options.standard.Pads (.bare .comment) := ⟨rfl, by decide⟩
  have pads : Options.standard.Padded [.bare .function, .bare .openParen, .bare .closeParen]
      [.bare .function, .bare .space, .bare .openParen, .bare .comment, .bare .closeParen] _ :=
    .keep _ (.pad space (.keep _ (.pad comment (.keep _ .nil))))
  exact (buildNode_padded pads (by decide) rfl .call 0 (.bare .function)).1

end RuleForest
