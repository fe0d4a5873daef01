import RuleForest.Proofs.CursorPlace
import RuleForest.Proofs.FirstWrongToken

namespace RuleForest

/-- The content of a list of some shape, up to its closer: items, and then a
comma with nothing but passed tokens behind it. -/
structure Shape.CommaEnds (o : Options) (shape : Shape) (comma : Token)
    (body gap : List Token) (closer : Token) (after : List Token) : Prop where
  kind : comma.kind = .comma
  items : ∃ depth nodes, Items o depth body nodes
  skips : o.Skips gap
  closes : closer.kind = shape.closer
  own : shape.ClosesAt 1 (body ++ comma :: (gap ++ closer :: after)) (body ++ comma :: gap).length

/-- Tokens behind the first one of a structure, up to the content of a list:
of the structure itself, or of one that a further bracket opens. -/
inductive Shape.OpensList (o : Options) (shape : Shape) : Shape → List Token → Prop
  | own {lead} : Lead o shape lead → OpensList o shape shape lead
  | nested {s outside bracket} : bracket.kind = s.opener → OpensList o shape s (outside ++ [bracket])

/-- The tokens of a list that ends on a comma, or in which another one does.
The other one may stand in calls whose names cannot be written. -/
inductive Shape.Trails (o : Options) (depth : Int) (shape : Shape) (comma : Token) :
    Shape → List Token → Prop
  | own {body gap nodes} : comma.kind = .comma → Items o depth body nodes → o.Skips gap →
      Slot.first.Completable o depth (body ++ [comma]) →
      Trails o depth shape comma shape (body ++ comma :: gap)
  | nested {s outside bracket body gap closer after} : bracket.kind = s.opener →
      s.CommaEnds o comma body gap closer after →
      (o.Named (outside ++ bracket :: (body ++ [comma])) →
        Slot.first.Completable o depth (outside ++ bracket :: (body ++ [comma]))) →
      Trails o depth shape comma s (outside ++ bracket :: (body ++ comma :: (gap ++ closer :: after)))

section Trailing

variable {o : Options} {depth : Int} {shape s : Shape} {comma first closer : Token}
  {body gap after : List Token}

theorem Shape.CommaEnds.append (ends : shape.CommaEnds o comma body gap closer after)
    (more : List Token) : shape.CommaEnds o comma body gap closer (after ++ more) := by
  refine ⟨ends.kind, ends.items, ends.skips, ends.closes, ?_⟩
  have further := ends.own.append more
  simpa using further

/-- Behind the first token of the structure, its content too stands behind a
bracket. -/
theorem Shape.OpensList.bracket {nested : Shape} {opening : List Token}
    (opens : nested.OpensList o s opening) (begins : first.kind.shape? = some nested) :
    ∃ outside bracket, first :: opening = outside ++ [bracket] ∧ bracket.kind = s.opener := by
  cases opens with
  | own leads =>
    cases leads with
    | array => exact ⟨[], first, rfl, Kind.shape?_eq_some_iff.mp begins⟩
    | @call gap opener skips kind _ => exact ⟨first :: gap, opener, rfl, kind⟩
  | @nested _ outside bracket kind => exact ⟨first :: outside, bracket, rfl, kind⟩

theorem build_trailing {rest : List Token} (shallow : depth < o.maxDepth)
    (content : ∀ inner, inner.length < rest.length →
      (elements shape o (depth + 1) .first inner).result = .error (.blame (.trailingComma s) comma) →
      shape.Trails o (depth + 1) comma s inner)
    (run : (build shape o depth first rest).outcome.result =
      .error (.blame (.trailingComma s) comma)) :
    ∃ opening body gap closer after, rest = opening ++ (body ++ comma :: (gap ++ closer :: after)) ∧
      shape.OpensList o s opening ∧ s.CommaEnds o comma body gap closer after ∧
      (o.Named (opening ++ (body ++ [comma])) →
        ∃ more, shape.Body o depth (opening ++ (body ++ [comma]) ++ more)) := by
  rcases build_error_cases run with ⟨deep, _⟩ | ⟨⟨⟩⟩ |
    ⟨_, rfl, gap, u, after, rfl, skips, seen, other, same⟩ | ⟨extent, found, failed⟩ | ⟨_, ⟨⟩⟩
  · omega
  · obtain ⟨_, _, ⟨⟩⟩ := Fault.blame_of_missingParen same.symm
  have trails := content extent.inner (Shape.length_inner_locate found) failed
  obtain ⟨_, lead, tokens, leads, rfl, _, enclosing⟩ := Shape.locate_eq_ok_iff.mp found
  obtain ⟨closer, after, closes, rfl, _⟩ := Shape.enclosed_split enclosing
  have place := Shape.enclosed_append_iff.mp enclosing
  generalize extent.inner = inner at trails place
  cases trails with
  | @own body gap nodes kind items skips completable =>
    refine ⟨lead, body, gap, closer, after, by simp, .own leads, ?_,
      fun _ => Shape.body_of_completable leads completable⟩
    exact ⟨kind, ⟨_, nodes, items⟩, skips, closes, by simpa using place⟩
  | @nested _ outside bracket body gap last later kind ends completable =>
    refine ⟨lead ++ outside ++ [bracket], body, gap, last, later ++ closer :: after, by simp,
      .nested kind, ends.append _, fun named => ?_⟩
    have joined : lead ++ outside ++ [bracket] ++ (body ++ [comma]) =
        lead ++ (outside ++ bracket :: (body ++ [comma])) := by simp
    rw [joined] at named ⊢
    exact Shape.body_of_completable leads
      (completable (named.mono (List.subset_append_right lead _)))

theorem elements_trailing {tokens : List Token}
    (run : (elements shape o depth .first tokens).result =
      .error (.blame (.trailingComma s) comma)) : shape.Trails o depth comma s tokens := by
  induction length : tokens.length using Nat.strongRecOn generalizing shape depth tokens with
  | ind n ih =>
    subst length
    rcases elements_fails Slot.supported_first run with ⟨⟨⟩, _⟩ |
      ⟨passed, next, rest, rfl, reads, supported, fails⟩
    cases fails with
    | @trailing _ gap kind seen skips =>
      obtain ⟨nodes, items⟩ : Slot.first.Accepts o depth (passed ++ []) :=
        (reads []).mpr ⟨[], More.last o.skips_nil⟩
      rw [List.append_nil] at items
      refine .own kind items skips ?_
      have again : (Slot.after comma).Supported o depth := fun _ => supported (by simp)
      rw [reads.completable]
      exact (Slot.reads_comma seen kind).completable.mpr again.completable
    | token trailing => exact absurd rfl (trailing s)
    | @nested _ first rest nested _ _ free begins seen shallow failed =>
      obtain ⟨opening, body, gap, closer, after, rfl, opens, ends, continues⟩ :=
        build_trailing shallow (fun inner shorter content => ih inner.length
          (by simp only [List.length_append, List.length_cons] at shorter ⊢; omega) content rfl) failed
      obtain ⟨outside, bracket, same, kind⟩ := opens.bracket begins
      have behind (tokens : List Token) : passed ++ first :: (opening ++ tokens) =
          (passed ++ outside) ++ bracket :: tokens := by
        rw [← List.cons_append, same]
        simp
      rw [behind]
      refine .nested kind ends ?_
      rw [← behind]
      intro named
      have within := named.mono (List.subset_append_right passed _)
      obtain ⟨more, whole⟩ := continues (within.mono (List.subset_cons_self first _))
      rw [reads.completable]
      exact whole.completable begins seen shallow (within.head begins seen) free

end Trailing

/-- Tokens behind the first one of a structure with which a stream can be
continued so that the structure is read. -/
def Stream.Continuable (front : List Token) (shape : Shape) (o : Options) (depth : Int)
    (first : Token) (tokens : List Token) : Prop :=
  ∃ more, ((placed (front ++ first :: (tokens ++ more)) front.length).buildNode
    shape o depth first).2.succeeds = true

theorem Stream.buildNode_placed_front (front rest : List Token) (shape : Shape) (o : Options)
    (depth : Int) (first : Token) :
    ((placed (front ++ first :: rest) front.length).buildNode shape o depth first).2 =
      (build shape o depth first rest).outcome := by
  have behind : (front ++ first :: rest).drop (front.length + 1) = rest := by
    rw [← List.drop_drop, List.drop_left, List.drop_succ_cons, List.drop_zero]
  rw [buildNode_placed, behind]

theorem Stream.continuable_iff {front tokens : List Token} {shape : Shape} {o : Options}
    {depth : Int} {first : Token} :
    Continuable front shape o depth first tokens ↔
      ∃ more, (build shape o depth first (tokens ++ more)).outcome.succeeds = true := by
  simp only [Continuable, buildNode_placed_front]

/-- A wrong token is blamed where reading gets to it. Up to the blamed token
the structure can be continued, if the names before it can be written, and
with it no longer. A comma at the end of a list is blamed where nothing but
passed tokens stands between it and the closer of that list, and under the
same condition the structure can still be continued with it. -/
theorem Stream.buildNode_blames_first_wrong {front w : List Token} {shape : Shape} {o : Options}
    {depth : Int} {first t : Token} {cause : Cause} (squares : o.ignores .squareBracket = false)
    (parens : o.ignores .parenthesis = false)
    (run : ((placed (front ++ first :: w) front.length).buildNode shape o depth first).2.result =
      .error (.blame cause t)) :
    ((cause.category = .malformedList ∧ (∀ s, cause ≠ .trailingComma s)) ∨
        (cause.category = .tooDeep ∧ depth < o.maxDepth) ∨ cause = .malformedString →
      ∃ b, w[b]? = some t ∧
        (shape.isNamed first = true → o.Named (w.take b) →
          Continuable front shape o depth first (w.take b)) ∧
        ¬ Continuable front shape o depth first (w.take (b + 1))) ∧
    (∀ s, cause = .trailingComma s →
      ∃ b, w[b]? = some t ∧ t.kind = .comma ∧
        (shape.isNamed first = true → o.Named (w.take (b + 1)) →
          Continuable front shape o depth first (w.take (b + 1))) ∧
        ∃ opening body gap closer after, w.take b = opening ++ body ∧
          w.drop (b + 1) = gap ++ closer :: after ∧ shape.OpensList o s opening ∧
          s.CommaEnds o t body gap closer after) := by
  have visible : o.ignores shape.group = false := by
    cases shape with
    | array => exact squares
    | call => exact parens
  rw [buildNode_placed_front] at run
  have atFirst := build_shallow_or_tooDeep run
  constructor
  · intro kinds
    have shallow : depth < o.maxDepth := by
      rcases atFirst with shallow | rfl
      · exact shallow
      · rcases kinds with ⟨⟨⟩, _⟩ | ⟨_, shallow⟩ | ⟨⟨⟩⟩
        exact shallow
    have prompt (s : Shape) : cause ≠ .trailingComma s ∧ cause ≠ .unterminated s := by
      rcases kinds with ⟨family, others⟩ | ⟨family, _⟩ | rfl
      · refine ⟨others s, ?_⟩
        rintro rfl
        cases family
      · constructor <;> rintro rfl <;> cases family
      · exact ⟨nofun, nofun⟩
    obtain ⟨before, behind, rfl, continues, ends⟩ := build_spoilt parens shallow prompt
      (fun inner _ failed => elements_spoilt parens prompt failed) run
    refine ⟨before.length, by simp, ?_, ?_⟩
    · rw [List.take_left' rfl, continuable_iff]
      intro own named
      obtain ⟨more, whole⟩ := continues named
      have succeeds := whole.succeeds visible shallow own []
      exact ⟨more, by simpa using succeeds⟩
    · rw [List.take_length_add_append, continuable_iff]
      rintro ⟨more, succeeds⟩
      have fails := ends more
      rw [List.append_cons] at fails
      exact Bool.noConfusion (fails.symm.trans succeeds)
  · rintro s rfl
    have shallow : depth < o.maxDepth := atFirst.resolve_right nofun
    obtain ⟨opening, body, gap, closer, after, rfl, opens, ends, continues⟩ :=
      build_trailing shallow (fun inner _ failed => elements_trailing failed) run
    rw [← List.append_assoc]
    refine ⟨(opening ++ body).length, by simp, ends.kind, ?_, opening, body, gap, closer, after,
      List.take_left' rfl, ?_, opens, ends⟩
    · rw [List.take_length_add_append, continuable_iff]
      intro own named
      obtain ⟨more, whole⟩ := continues (by simpa using named)
      have succeeds := whole.succeeds visible shallow own []
      exact ⟨more, by simpa using succeeds⟩
    · rw [List.drop_length_add_append]
      rfl

/-- Of two numbers without a comma the second is blamed, and of a number with
a comma behind it the comma. -/
theorem Stream.blamed_numbers_first_wrong :
    (∃ b, [Token.bare .integer, .bare .float, .bare .closeSquare][b]? = some (.bare .float) ∧
      Continuable [] .array .standard 0 (.bare .openSquare)
        ([Token.bare .integer, .bare .float, .bare .closeSquare].take b) ∧
      ¬ Continuable [] .array .standard 0 (.bare .openSquare)
        ([Token.bare .integer, .bare .float, .bare .closeSquare].take (b + 1))) ∧
    ∃ b, [Token.bare .integer, .bare .comma, .bare .closeSquare][b]? = some (.bare .comma) ∧
      Continuable [] .array .standard 0 (.bare .openSquare)
        ([Token.bare .integer, .bare .comma, .bare .closeSquare].take (b + 1)) := by
  constructor
  · have run : ((placed ([] ++ .bare .openSquare :: [.bare .integer, .bare .float, .bare .closeSquare])
        ([] : List Token).length).buildNode .array .standard 0 (.bare .openSquare)).2.result =
          .error (.blame (.missingComma .array) (.bare .float)) := by
      have found : Shape.array.locate .standard 0 (.bare .openSquare)
          [.bare .integer, .bare .float, .bare .closeSquare] =
            .ok ⟨0, [.bare .integer, .bare .float]⟩ := rfl
      rw [buildNode_placed_front, build_of_ok found]
      refine Shape.finish_eq_error_iff.mpr (Or.inl ?_)
      rw [elements_item rfl (by decide) rfl rfl, read_of_plain rfl]
      refine Traced.result_bind_eq_error.mpr (Or.inr ⟨_, rfl, ?_⟩)
      rw [List.drop_zero, elements_missing rfl (by decide) rfl]
      rfl
    obtain ⟨b, atPlace, continuable, spoilt⟩ :=
      (buildNode_blames_first_wrong rfl rfl run).1 (Or.inl ⟨rfl, nofun⟩)
    have named : Options.standard.Named [.bare .integer, .bare .float, .bare .closeSquare] := by
      simp [Options.Named, Token.LacksName, Token.bare]
    exact ⟨b, atPlace, continuable rfl (named.mono (List.take_subset ..)), spoilt⟩
  · have run : ((placed ([] ++ .bare .openSquare :: [.bare .integer, .bare .comma, .bare .closeSquare])
        ([] : List Token).length).buildNode .array .standard 0 (.bare .openSquare)).2.result =
          .error (.blame (.trailingComma .array) (.bare .comma)) := by
      have found : Shape.array.locate .standard 0 (.bare .openSquare)
          [.bare .integer, .bare .comma, .bare .closeSquare] =
            .ok ⟨0, [.bare .integer, .bare .comma]⟩ := rfl
      rw [buildNode_placed_front, build_of_ok found]
      refine Shape.finish_eq_error_iff.mpr (Or.inl ?_)
      rw [elements_item rfl (by decide) rfl rfl, read_of_plain rfl]
      refine Traced.result_bind_eq_error.mpr (Or.inr ⟨_, rfl, ?_⟩)
      rw [List.drop_zero, elements_comma rfl rfl, Slot.isFilled, if_pos rfl, elements_nil_after]
      rfl
    obtain ⟨b, atPlace, _, continuable, _⟩ :=
      (buildNode_blames_first_wrong rfl rfl run).2 .array rfl
    have named : Options.standard.Named [.bare .integer, .bare .comma, .bare .closeSquare] := by
      simp [Options.Named, Token.LacksName, Token.bare]
    exact ⟨b, atPlace, continuable rfl (named.mono (List.take_subset ..))⟩

/-- Behind a name that is too long to be written a comma is blamed, although
the tokens before it cannot be continued either. -/
theorem Stream.blamed_behind_oversized_name :
    ((placed [.oversized .function, .bare .openParen, .bare .comma, .bare .closeParen] 0).buildNode
      .call .standard 0 (.oversized .function)).2.result =
        .error (.blame .unexpectedComma (.bare .comma)) ∧
    ∀ tokens, ¬ Continuable [] .call .standard 0 (.oversized .function) tokens := by
  constructor
  · have found : Shape.call.locate .standard 0 (.oversized .function)
        [.bare .openParen, .bare .comma, .bare .closeParen] = .ok ⟨1, [.bare .comma]⟩ := rfl
    rw [buildNode_placed]
    simp only [List.drop_succ_cons, List.drop_zero, build_of_ok found]
    refine Shape.finish_eq_error_iff.mpr (Or.inl ?_)
    rw [elements_comma rfl rfl]
    rfl
  · intro tokens continuable
    obtain ⟨more, succeeds⟩ := continuable_iff.mp continuable
    obtain ⟨node, run⟩ := Traced.succeeds_iff.mp succeeds
    obtain ⟨_, _, _, _, named, _⟩ := build_eq_ok_iff.mp run
    rw [Shape.not_isNamed_oversized] at named
    cases named

end RuleForest
