import RuleForest.Proofs.CursorScan
import RuleForest.Proofs.ReadingFaults

namespace RuleForest

/-- The first token behind place `c` that is not passed over is `t`, at `i`. -/
def Options.FirstSeen (o : Options) (tokens : List Token) (c i : Nat) (t : Token) : Prop :=
  o.ignores t.group = false ∧ ∃ gap, o.Skips gap ∧ Spans tokens c i (gap ++ [t])

/-- The place of the opening bracket of a structure that begins at place `c`. -/
inductive Shape.OpensAt (o : Options) (tokens : List Token) (c : Nat) : Shape → Nat → Prop
  | array : OpensAt o tokens c .array c
  | call {b t} : o.FirstSeen tokens c b t → t.kind = .openParen → OpensAt o tokens c .call b

/-- The count of open brackets of a shape, which is one behind place `b`,
comes down to zero on the token at `j` and not before. -/
def Shape.CloserAt (shape : Shape) (tokens : List Token) (b j : Nat) : Prop :=
  b < j ∧ shape.ClosesAt 1 (tokens.drop (b + 1)) (j - (b + 1))

theorem Options.FirstSeen.split {o : Options} {tokens : List Token} {c i : Nat} {t : Token}
    (firstSeen : o.FirstSeen tokens c i t) :
    o.ignores t.group = false ∧ ∃ gap after, o.Skips gap ∧
      tokens.drop (c + 1) = gap ++ t :: after ∧ i = c + (gap.length + 1) ∧ i < tokens.length := by
  obtain ⟨seen, gap, skips, spans⟩ := firstSeen
  obtain ⟨after, whole, length⟩ := (spans_iff (by simp)).mp spans
  refine ⟨seen, gap, after, skips, ?_, by simpa using length, spans.1⟩
  simpa using whole

theorem Shape.OpensAt.split {o : Options} {tokens : List Token} {c b : Nat} {shape : Shape}
    (opens : shape.OpensAt o tokens c b) :
    ∃ lead, Lead o shape lead ∧ tokens.drop (c + 1) = lead ++ tokens.drop (b + 1) ∧
      b = c + lead.length := by
  cases opens with
  | array => exact ⟨[], .array, rfl, rfl⟩
  | @call b t firstSeen kind =>
    obtain ⟨seen, gap, after, skips, whole, rfl, _⟩ := firstSeen.split
    refine ⟨gap ++ [t], .call skips kind (by rwa [Token.group, kind] at seen), ?_, by simp⟩
    have behind : tokens.drop (c + (gap.length + 1) + 1) = after := by
      rw [Nat.add_right_comm, ← List.drop_drop, whole, List.drop_append]
      simp
    rw [behind, whole, List.append_assoc, List.singleton_append]

theorem Shape.CloserAt.split {shape : Shape} {tokens : List Token} {b j : Nat}
    (closer : shape.CloserAt tokens b j) :
    ∃ inner, shape.enclosed 0 (tokens.drop (b + 1)) = some inner ∧ j = b + (inner.length + 1) ∧
      j < tokens.length ∧ ∀ k, k < inner.length → inner[k]? = tokens[b + 1 + k]? := by
  obtain ⟨behind, closes⟩ := closer
  have within := closes.within
  rw [List.length_drop] at within
  refine ⟨_, enclosed_eq_some_iff.mpr ⟨_, closes, rfl⟩, ?_, by omega, ?_⟩
  · rw [List.length_take, List.length_drop]
    omega
  · intro k inside
    rw [List.length_take] at inside
    rw [List.getElem?_take_of_lt (by omega), List.getElem?_drop]

namespace Stream

section Places

variable {tokens : List Token} {c b i j : Nat} {shape : Shape} {o : Options} {depth : Int}
  {first t : Token}

theorem buildNode_of_deep (deep : o.maxDepth ≤ depth) :
    (placed tokens c).buildNode shape o depth first =
      (placed tokens c, .fail (.blame (.tooDeep shape o.maxDepth) first)) := by
  rw [buildNode_placed, build_of_error (Shape.locate_of_deep deep ..)]
  rfl

theorem buildNode_of_skips (shallow : depth < o.maxDepth) (skips : o.Skips (tokens.drop (c + 1))) :
    ((placed tokens c).buildNode .call o depth first).1.index = tokens.length ∧
      ((placed tokens c).buildNode .call o depth first).2.result =
        .error (.blame (.unterminated .call) first) := by
  rw [buildNode_placed, build_of_error (Shape.locate_of_skips shallow skips first)]
  refine ⟨index_placed_end ?_ ?_, rfl⟩ <;> simp only [Shape.unterminated, List.length_drop] <;> omega

theorem buildNode_of_other (shallow : depth < o.maxDepth) (firstSeen : o.FirstSeen tokens c i t)
    (other : t.kind ≠ .openParen) :
    ((placed tokens c).buildNode .call o depth first).1.index = i ∧
      ((placed tokens c).buildNode .call o depth first).2.result =
        .error (.missingParen first t) := by
  obtain ⟨seen, gap, after, skips, whole, rfl, within⟩ := firstSeen.split
  rw [buildNode_placed, whole, build_of_error (Shape.locate_of_other shallow skips seen other first)]
  exact ⟨index_placed_of_le (Nat.le_of_lt within) (by omega), rfl⟩

theorem buildNode_of_unclosed (shallow : depth < o.maxDepth) (opens : shape.OpensAt o tokens c b)
    (never : ∀ j, ¬ shape.CloserAt tokens b j) :
    ((placed tokens c).buildNode shape o depth first).1.index = tokens.length ∧
      ((placed tokens c).buildNode shape o depth first).2.result =
        .error (.blame (.unterminated shape) first) := by
  obtain ⟨lead, leads, whole, rfl⟩ := opens.split
  have none : shape.enclosed 0 (tokens.drop (c + lead.length + 1)) = none := by
    refine Shape.enclosed_eq_none_iff.mpr fun j closes => never (c + lead.length + 1 + j) ⟨by omega, ?_⟩
    rwa [Nat.add_sub_cancel_left]
  have located := Shape.locate_of_lead shallow leads first (tokens.drop (c + lead.length + 1))
  rw [none] at located
  rw [buildNode_placed, whole, build_of_error located]
  refine ⟨index_placed_end ?_ ?_, rfl⟩ <;>
    simp only [Shape.unterminated, List.length_append, List.length_drop] <;> omega

/-- The cursor ends on the closer whatever is read between the brackets. A
fault in there blames one of the tokens in there, unless a name, of one of
them or of the structure itself, cannot be written. -/
theorem buildNode_of_closed (shallow : depth < o.maxDepth) (opens : shape.OpensAt o tokens c b)
    (closer : shape.CloserAt tokens b j) :
    ((placed tokens c).buildNode shape o depth first).1 = placed tokens j ∧
      (placed tokens j).index = j ∧
      ∀ fault, ((placed tokens c).buildNode shape o depth first).2.result = .error fault →
        (∃ cause i t, fault = .blame cause t ∧ b < i ∧ i < j ∧ tokens[i]? = some t ∧
          o.ignores t.group = false) ∨
        (fault = .unwritable ∧ (shape.isNamed first = false ∨
          ∃ i t, b < i ∧ i < j ∧ tokens[i]? = some t ∧ o.ignores t.group = false ∧ t.LacksName)) := by
  obtain ⟨lead, leads, whole, rfl⟩ := opens.split
  obtain ⟨inner, enclosing, rfl, within, same⟩ := closer.split
  have located := Shape.locate_of_lead shallow leads first (tokens.drop (c + lead.length + 1))
  rw [enclosing] at located
  rw [buildNode_placed, whole, build_of_ok located]
  refine ⟨?_, index_placed_of_le (Nat.le_of_lt within) (by omega), ?_⟩
  · simp only [Extent.advances, Nat.add_assoc]
  · intro fault run
    have between {t : Token} (member : t ∈ inner) :
        ∃ i, c + lead.length < i ∧ i < c + lead.length + (inner.length + 1) ∧ tokens[i]? = some t := by
      obtain ⟨k, inside, atPlace⟩ := List.mem_iff_getElem.mp member
      refine ⟨c + lead.length + 1 + k, by omega, by omega, ?_⟩
      rw [← same k inside, List.getElem?_eq_getElem inside, atPlace]
    rcases Shape.finish_eq_error_iff.mp run with failed | ⟨_, unnamed, rfl⟩
    · rcases elements_among failed with among | ⟨_, _, ⟨⟩, _⟩
      cases among with
      | @blame cause t member seen =>
        obtain ⟨i, above, below, found⟩ := between member
        exact Or.inl ⟨cause, i, t, rfl, above, below, found, seen⟩
      | @unwritable t member seen nameless =>
        obtain ⟨i, above, below, found⟩ := between member
        exact Or.inr ⟨rfl, Or.inr ⟨i, t, above, below, found, seen, nameless⟩⟩
    · exact Or.inr ⟨rfl, Or.inl unnamed⟩

theorem buildNode_ne_position (index length : Int) :
    ((placed tokens c).buildNode shape o depth first).2.result ≠ .error (.position index length) := by
  rw [buildNode_placed]
  intro run
  obtain ⟨⟨⟩⟩ | ⟨cause, t, ⟨⟩⟩ := build_blames run

theorem readForest_ne_position (index length : Int) :
    ((placed tokens c).readForest o depth).2.result ≠ .error (.position index length) := by
  rw [readForest_placed]
  intro run
  obtain ⟨⟨⟩⟩ | ⟨cause, t, ⟨⟩⟩ := forest_blames run

theorem readForest_eq_walkNodes :
    (placed tokens c).readForest o depth = (placed tokens c).rewind.walkNodes o depth := by
  rw [rewind_placed, walkNodes_placed o depth rfl, readForest_placed, Nat.zero_add]
  rfl

end Places

/-- Where reading a structure leaves the cursor, and which fault it reports,
whatever the tokens. The nesting limit comes first, then the opening bracket,
then the closer, the content, and the name last. Nested structures are read
from tokens of their own, so that no fault of theirs moves the cursor off the
closer, and going through the tokens one by one on a cursor does the same. A
fault blames no token only where a name cannot be written. -/
theorem buildNode_cursor (tokens : List Token) (c : Nat) (shape : Shape) (o : Options)
    (depth : Int) (first : Token) :
    (o.maxDepth ≤ depth → (placed tokens c).buildNode shape o depth first =
      (placed tokens c, .fail (.blame (.tooDeep shape o.maxDepth) first))) ∧
    (depth < o.maxDepth → shape = .call → o.Skips (tokens.drop (c + 1)) →
      ((placed tokens c).buildNode shape o depth first).1.index = tokens.length ∧
      ((placed tokens c).buildNode shape o depth first).2.result =
        .error (.blame (.unterminated .call) first)) ∧
    (∀ i t, depth < o.maxDepth → shape = .call → o.FirstSeen tokens c i t → t.kind ≠ .openParen →
      ((placed tokens c).buildNode shape o depth first).1.index = i ∧
      (∀ name, first.value.shown? = some name →
        ((placed tokens c).buildNode shape o depth first).2.result =
          .error (.blame (.missingParen name) t)) ∧
      (first.value.shown? = none →
        ((placed tokens c).buildNode shape o depth first).2.result = .error .unwritable)) ∧
    (∀ b, depth < o.maxDepth → shape.OpensAt o tokens c b → (∀ j, ¬ shape.CloserAt tokens b j) →
      ((placed tokens c).buildNode shape o depth first).1.index = tokens.length ∧
      ((placed tokens c).buildNode shape o depth first).2.result =
        .error (.blame (.unterminated shape) first)) ∧
    (∀ b j, depth < o.maxDepth → shape.OpensAt o tokens c b → shape.CloserAt tokens b j →
      ((placed tokens c).buildNode shape o depth first).1 = placed tokens j ∧
      (placed tokens j).index = j ∧
      ∀ fault, ((placed tokens c).buildNode shape o depth first).2.result = .error fault →
        (∃ cause i t, fault = .blame cause t ∧ b < i ∧ i < j ∧ tokens[i]? = some t ∧
          o.ignores t.group = false) ∨
        (fault = .unwritable ∧ (shape.isNamed first = false ∨
          ∃ i t, b < i ∧ i < j ∧ tokens[i]? = some t ∧ o.ignores t.group = false ∧ t.LacksName))) ∧
    (placed tokens c).buildNode shape o depth first =
      (placed tokens c).walkStructure shape o depth first ∧
    (placed tokens c).readForest o depth = (placed tokens c).rewind.walkNodes o depth ∧
    ∀ index length,
      ((placed tokens c).buildNode shape o depth first).2.result ≠ .error (.position index length) ∧
      ((placed tokens c).readForest o depth).2.result ≠ .error (.position index length) := by
  refine ⟨buildNode_of_deep, ?_, ?_, fun b => buildNode_of_unclosed, fun b j => buildNode_of_closed,
    (walkStructure_placed shape o depth first tokens c).symm, readForest_eq_walkNodes,
    fun index length => ⟨buildNode_ne_position index length, readForest_ne_position index length⟩⟩
  · rintro shallow rfl skips
    exact buildNode_of_skips shallow skips
  · rintro i t shallow rfl firstSeen other
    obtain ⟨index, result⟩ := @buildNode_of_other tokens c i o depth first t shallow firstSeen other
    refine ⟨index, fun name shown => ?_, fun hidden => ?_⟩
    · rw [result, Fault.missingParen, shown]
    · rw [result, Fault.missingParen, hidden]

/-- A structure nested too deep, a name alone, a name before a number, an
array without end, and an array of a comma alone. -/
theorem cursor_after_samples :
    ((placed [.bare .openSquare] 0).buildNode .array .standard 64 (.bare .openSquare)).1 =
      placed [.bare .openSquare] 0 ∧
    ((placed [.bare .function, .bare .space] 0).buildNode .call .standard 0 (.bare .function)).1.index =
      2 ∧
    ((placed [.bare .function, .bare .integer, .bare .space] 0).buildNode .call .standard 0
      (.bare .function)).1.index = 1 ∧
    ((placed [.bare .openSquare, .bare .integer] 0).buildNode .array .standard 0
      (.bare .openSquare)).1.index = 2 ∧
    ((placed [.bare .openSquare, .bare .comma, .bare .closeSquare] 0).buildNode .array .standard 0
      (.bare .openSquare)).1 = placed [.bare .openSquare, .bare .comma, .bare .closeSquare] 2 := by
  have never (j : Nat) : ¬ Shape.array.CloserAt [.bare .openSquare, .bare .integer] 0 j := by
    rintro ⟨_, closes⟩
    exact Shape.enclosed_eq_none_iff.mp (by decide) _ closes
  refine ⟨?_, ?_, ?_, ?_, ?_⟩
  · exact congrArg Prod.fst
      ((buildNode_cursor _ 0 .array .standard 64 (.bare .openSquare)).1 (by decide))
  · exact ((buildNode_cursor _ 0 .call .standard 0 (.bare .function)).2.1 (by decide) rfl
      (by unfold Options.Skips; decide)).1
  · exact ((buildNode_cursor _ 0 .call .standard 0 (.bare .function)).2.2.1 1 (.bare .integer)
      (by decide) rfl ⟨rfl, [], Options.skips_nil _, by decide, rfl⟩ (by decide)).1
  · exact ((buildNode_cursor _ 0 .array .standard 0 (.bare .openSquare)).2.2.2.1 0 (by decide)
      .array never).1
  · exact ((buildNode_cursor _ 0 .array .standard 0 (.bare .openSquare)).2.2.2.2.1 0 2 (by decide)
      .array ⟨by decide, by decide, by decide, by decide⟩).1

/-- A number follows a name that is too long to be written. The fault blames
neither of them. -/
theorem cursor_after_oversized_name :
    0 < Options.standard.maxDepth ∧
    Options.standard.FirstSeen [.oversized .function, .bare .integer] 0 1 (.bare .integer) ∧
    (Token.bare .integer).kind ≠ .openParen ∧
    ((placed [.oversized .function, .bare .integer] 0).buildNode .call .standard 0
      (.oversized .function)).2.result = .error .unwritable := by
  have shallow : 0 < Options.standard.maxDepth := by decide
  have firstSeen :
      Options.standard.FirstSeen [.oversized .function, .bare .integer] 0 1 (.bare .integer) :=
    ⟨rfl, [], Options.skips_nil _, by decide, rfl⟩
  have other : (Token.bare .integer).kind ≠ .openParen := by decide
  refine ⟨shallow, firstSeen, other, ?_⟩
  rw [(buildNode_of_other shallow firstSeen other).2, Fault.missingParen, Token.shown?_oversized]

end Stream

end RuleForest
