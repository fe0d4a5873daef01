import RuleForest.Proofs.CursorPlace
import RuleForest.Proofs.DerivedReading

namespace RuleForest

/-- A structure is read exactly where it can be named, its brackets stand
around a derived list and its own brackets are counted down on the last of
these tokens. -/
theorem build_eq_ok_iff_items {shape : Shape} {o : Options} {depth : Int} (first : Token)
    {rest : List Token} {nodes : List Node} {n : Nat} :
    ((build shape o depth first rest).outcome.result = .ok (shape.node first nodes) ∧
        (build shape o depth first rest).advances = n) ↔
      depth < o.maxDepth ∧ shape.isNamed first = true ∧ ∃ lead content closer after,
        Lead o shape lead ∧ rest = (lead ++ (content ++ [closer])) ++ after ∧ closer.kind = shape.closer ∧
        shape.enclosed 0 (content ++ closer :: after) = some content ∧
        Items o (depth + 1) content nodes ∧ n = (lead ++ (content ++ [closer])).length := by
  constructor
  · rintro ⟨run, rfl⟩
    obtain ⟨extent, others, found, content, named, same⟩ := build_eq_ok_iff.mp run
    have items : nodes = others := by
      cases shape <;> simp only [Shape.node, Node.array, Node.call, Node.tree.injEq, List.cons.injEq,
        true_and, and_true] at same <;> exact same
    subst items
    obtain ⟨shallow, lead, tokens, leads, rfl, length, enclosing⟩ := Shape.locate_eq_ok_iff.mp found
    obtain ⟨closer, after, closes, rfl, _⟩ := Shape.enclosed_split enclosing
    refine ⟨shallow, named, lead, extent.inner, closer, after, leads, ?_, closes, enclosing,
      elements_derives content, ?_⟩
    · simp
    · simp only [build_of_ok found, Extent.advances, length, List.length_append, List.length_singleton]
      omega
  · rintro ⟨shallow, named, lead, content, closer, after, leads, rfl, closes, enclosing, items, rfl⟩
    have found : shape.locate o depth first ((lead ++ (content ++ [closer])) ++ after) =
        .ok ⟨lead.length, content⟩ :=
      Shape.locate_eq_ok_iff.mpr ⟨shallow, lead, content ++ closer :: after, leads, by simp, rfl, enclosing⟩
    refine ⟨build_eq_ok_iff.mpr ⟨_, nodes, found, elements_eq_ok_iff.mpr items, named, rfl⟩, ?_⟩
    simp only [build_of_ok found, Extent.advances, List.length_append, List.length_singleton]
    omega

/-- On a stream the same holds of the tokens between the cursor before and
the cursor after reading. -/
theorem Stream.buildNode_eq_ok_iff {shape : Shape} {o : Options} {depth : Int} {first : Token}
    {tokens : List Token} {c j : Nat} {nodes : List Node} :
    (((placed tokens c).buildNode shape o depth first).2.result = .ok (shape.node first nodes) ∧
        ((placed tokens c).buildNode shape o depth first).1.index = j) ↔
      depth < o.maxDepth ∧ shape.isNamed first = true ∧ ∃ lead content closer, Lead o shape lead ∧
        Spans tokens c j (lead ++ (content ++ [closer])) ∧ closer.kind = shape.closer ∧
        shape.ClosesAt 1 (tokens.drop (c + 1 + lead.length)) content.length ∧
        Items o (depth + 1) content nodes := by
  have behind (lead content : List Token) (closer : Token) : lead ++ (content ++ [closer]) ≠ [] := by simp
  have place {lead content after : List Token} {closer : Token}
      (whole : tokens.drop (c + 1) = (lead ++ (content ++ [closer])) ++ after) :
      shape.enclosed 0 (content ++ closer :: after) = some content ↔
        shape.ClosesAt 1 (tokens.drop (c + 1 + lead.length)) content.length := by
    have dropped : tokens.drop (c + 1 + lead.length) = content ++ closer :: after := by
      rw [← List.drop_drop, whole]
      simp
    rw [dropped, Shape.enclosed_append_iff]
  rw [buildNode_placed]
  constructor
  · rintro ⟨run, index⟩
    obtain ⟨shallow, named, lead, content, closer, after, leads, whole, closes, enclosing, items, length⟩ :=
      (build_eq_ok_iff_items first).mp ⟨run, rfl⟩
    have total := congrArg List.length whole
    rw [List.length_append, List.length_drop] at total
    have positive := List.length_pos_iff.mpr (behind lead content closer)
    rw [length, index_placed_of_le (by omega) (by omega)] at index
    exact ⟨shallow, named, lead, content, closer, leads,
      (spans_iff (behind lead content closer)).mpr ⟨after, whole, by omega⟩, closes, (place whole).mp enclosing, items⟩
  · rintro ⟨shallow, named, lead, content, closer, leads, spans, closes, enclosing, items⟩
    obtain ⟨after, whole, rfl⟩ := (spans_iff (behind lead content closer)).mp spans
    have built := (build_eq_ok_iff_items first).mpr
      ⟨shallow, named, lead, content, closer, after, leads, whole, closes, (place whole).mpr enclosing,
        items, rfl⟩
    refine ⟨built.1, ?_⟩
    have total := congrArg List.length whole
    rw [List.length_append, List.length_drop] at total
    have positive := List.length_pos_iff.mpr (behind lead content closer)
    rw [built.2, index_placed_of_le (by omega) (by omega)]

/-- A list of tokens is derived as a list of nodes in one way only. -/
theorem Items.unique {o : Options} {depth : Int} {tokens : List Token} {xs ys : List Node}
    (left : Items o depth tokens xs) (right : Items o depth tokens ys) : xs = ys := by
  have first := left.elements .array .first rfl fun _ => rfl
  have second := right.elements .array .first rfl fun _ => rfl
  exact Except.ok.inj (first.symm.trans second)

/-- Brackets that are not passed over are counted down on the closer of a
derived list, whatever follows it. -/
theorem Items.closesAt {o : Options} {depth : Int} {shape : Shape} {content : List Token}
    {nodes : List Node} (items : Items o depth content nodes) (seen : o.ignores shape.group = false)
    {closer : Token} (closes : closer.kind = shape.closer) (after : List Token) :
    shape.ClosesAt 1 (content ++ closer :: after) content.length :=
  Shape.enclosed_append_iff.mp ((items.balanced seen).enclosed closes after)

/-- The bracketed structures are read exactly where the tokens from the
cursor on are derived. For a call, its name can be written and is followed by
passed tokens and by brackets around a list. For an array, a list and its
closer follow; where square brackets are passed over, they have to be balanced
besides. The nodes are determined by the tokens. -/
theorem Stream.buildNode_accepts (tokens : List Token) (c : Nat) (o : Options) (depth : Int)
    (first : Token) :
    (∀ args j,
      (((placed tokens c).buildNode .call o depth first).2.result =
            .ok (.call (Shape.nameLeaf first) args) ∧
          ((placed tokens c).buildNode .call o depth first).1.index = (j : Nat)) ↔
        depth < o.maxDepth ∧ first.value.isWritable = true ∧ ∃ gap opener content closer,
          Spans tokens c j (gap ++ opener :: (content ++ [closer])) ∧ o.Skips gap ∧
          opener.kind = .openParen ∧ o.ignores opener.group = false ∧
          Items o (depth + 1) content args ∧ closer.kind = .closeParen) ∧
    (o.ignores .squareBracket = false → ∀ items j,
      (((placed tokens c).buildNode .array o depth first).2.result = .ok (.array items) ∧
          ((placed tokens c).buildNode .array o depth first).1.index = (j : Nat)) ↔
        depth < o.maxDepth ∧ ∃ content closer, Spans tokens c j (content ++ [closer]) ∧
          Items o (depth + 1) content items ∧ closer.kind = .closeSquare) ∧
    (∀ items j,
      (((placed tokens c).buildNode .array o depth first).2.result = .ok (.array items) ∧
          ((placed tokens c).buildNode .array o depth first).1.index = (j : Nat)) ↔
        depth < o.maxDepth ∧ ∃ content closer, Spans tokens c j (content ++ [closer]) ∧
          Items o (depth + 1) content items ∧ closer.kind = .closeSquare ∧
          Shape.array.ClosesAt 1 (tokens.drop (c + 1)) content.length) ∧
    (∀ e content xs ys, Items o e content xs → Items o e content ys → xs = ys) := by
  refine ⟨fun args j => ?_, fun seen items j => ?_, fun items j => ?_,
    fun e content xs ys left right => left.unique right⟩
  · refine (@buildNode_eq_ok_iff .call o depth first tokens c j args).trans ?_
    constructor
    · rintro ⟨shallow, named, lead, content, closer, leads, spans, closes, _, items⟩
      cases leads with
      | @call gap opener skips opens seen =>
        rw [List.append_assoc, List.singleton_append] at spans
        refine ⟨shallow, named, gap, opener, content, closer, spans, skips, opens, ?_, items, closes⟩
        rwa [Token.group, opens]
    · rintro ⟨shallow, named, gap, opener, content, closer, spans, skips, opens, seen, items, closes⟩
      have visible : o.ignores .parenthesis = false := by rwa [Token.group, opens] at seen
      obtain ⟨after, whole, rfl⟩ := (spans_iff (by simp)).mp spans
      refine ⟨shallow, named, gap ++ [opener], content, closer, .call skips opens visible, ?_, closes, ?_,
        items⟩
      · rwa [List.append_assoc, List.singleton_append]
      · have counted := @Items.closesAt o _ .call content args items visible closer closes after
        rw [← List.drop_drop, whole]
        simpa using counted
  · refine (@buildNode_eq_ok_iff .array o depth first tokens c j items).trans ?_
    constructor
    · rintro ⟨shallow, _, lead, content, closer, ⟨⟩, spans, closes, _, items⟩
      exact ⟨shallow, content, closer, spans, items, closes⟩
    · rintro ⟨shallow, content, closer, spans, items, closes⟩
      obtain ⟨after, whole, rfl⟩ := (spans_iff (by simp)).mp spans
      refine ⟨shallow, rfl, [], content, closer, .array, spans, closes, ?_, items⟩
      have counted := @Items.closesAt o _ .array content _ items seen closer closes after
      rw [List.length_nil, Nat.add_zero, whole]
      simpa using counted
  · refine (@buildNode_eq_ok_iff .array o depth first tokens c j items).trans ?_
    constructor
    · rintro ⟨shallow, _, lead, content, closer, ⟨⟩, spans, closes, balanced, items⟩
      exact ⟨shallow, content, closer, spans, items, closes, balanced⟩
    · rintro ⟨shallow, content, closer, spans, items, closes, balanced⟩
      exact ⟨shallow, rfl, [], content, closer, .array, spans, closes, balanced, items⟩

/-- A call with an array among its arguments, an array of its own, and an
array with square brackets passed over, whose nodes are determined. -/
theorem Stream.buildNode_accepts_numbers :
    ((placed [.bare .function, .bare .openParen, .bare .openSquare, .bare .closeSquare,
        .bare .closeParen] 0).buildNode .call .standard 0 (.bare .function)).1.index = 4 ∧
    ((placed [.bare .openSquare, .bare .integer, .bare .closeSquare] 0).buildNode .array .standard 0
        (.bare .openSquare)).1.index = 2 ∧
    ((placed [.bare .openSquare, .bare .integer, .bare .closeSquare] 0).buildNode .array
        (.ignoring [.squareBracket] 1) 0 (.bare .openSquare)).1.index = 2 ∧
    ∀ ys, Items .standard 1 [.bare .integer] ys → [.token (.bare .integer)] = ys := by
  have number (o : Options) (seen : o.ignores .value = false) :
      Items o 1 [.bare .integer] [.token (.bare .integer)] := by
    have element : Element o 1 [.bare .integer] (.token (.bare .integer)) :=
      .plain (Or.inl rfl) seen
    exact .some o.skips_nil element (.last o.skips_nil)
  have empty : Items .standard 1 [.bare .openSquare, .bare .closeSquare] [.array []] :=
    .some (Options.skips_nil _)
      (@Element.nested _ 1 .array (.bare .openSquare) [] [] (.bare .closeSquare) [] rfl (by decide)
        rfl rfl .array (.none (Options.skips_nil _)) rfl)
      (.last (Options.skips_nil _))
  refine ⟨?_, ?_, ?_, ?_⟩
  · exact (((buildNode_accepts _ 0 .standard 0 (.bare .function)).1 [.array []] 4).mpr
      ⟨by decide, rfl, [], .bare .openParen, _, .bare .closeParen, ⟨by decide, rfl⟩,
        Options.skips_nil _, rfl, rfl, empty, rfl⟩).2
  · exact (((buildNode_accepts _ 0 .standard 0 (.bare .openSquare)).2.1 rfl _ 2).mpr
      ⟨by decide, _, .bare .closeSquare, ⟨by decide, rfl⟩, number .standard rfl, rfl⟩).2
  · exact (((buildNode_accepts _ 0 (.ignoring [.squareBracket] 1) 0 (.bare .openSquare)).2.2.1 _
      2).mpr ⟨by decide, _, .bare .closeSquare, ⟨by decide, rfl⟩, number _ rfl, rfl,
        by decide, by decide, by decide⟩).2
  · exact fun ys => (buildNode_accepts [] 0 .standard 0 (.bare .openSquare)).2.2.2 1 _ _ ys
      (number .standard rfl)

/-- A name that is too long to be written is followed by brackets around an
empty list, and still no call is read. -/
theorem Stream.buildNode_oversized_name :
    (0 < Options.standard.maxDepth ∧ ∃ gap opener content closer,
      Spans [.oversized .function, .bare .openParen, .bare .closeParen] 0 2
        (gap ++ opener :: (content ++ [closer])) ∧ Options.standard.Skips gap ∧
      opener.kind = .openParen ∧ Options.standard.ignores opener.group = false ∧
      Items .standard 1 content [] ∧ closer.kind = .closeParen) ∧
    ((placed [.oversized .function, .bare .openParen, .bare .closeParen] 0).buildNode .call
      .standard 0 (.oversized .function)).2.result = .error .unwritable := by
  have derived : Items .standard 1 [] [] := .none (Options.skips_nil _)
  constructor
  · exact ⟨by decide, [], .bare .openParen, [], .bare .closeParen, ⟨by decide, rfl⟩,
      Options.skips_nil _, rfl, rfl, derived, rfl⟩
  · rw [buildNode_placed]
    simp only [List.drop_succ_cons, List.drop_zero, build_without_args,
      Shape.finish_of_unnamed (Shape.not_isNamed_oversized .function)]

end RuleForest
