import RuleForest.Proofs.ListCompletion
import RuleForest.Proofs.ReadingFaults

namespace RuleForest

/-- Where reading a list fails with some of its tokens still ahead. Unless
the fault lies within a structure or is a comma with nothing behind it, no
list goes on with the token ahead. -/
inductive Slot.Fails (o : Options) (shape : Shape) (depth : Int) :
    Slot → List Token → Cause → Token → Prop
  | trailing {comma gap} : comma.kind = .comma → o.ignores comma.group = false → o.Skips gap →
      Fails o shape depth .filled (comma :: gap) (.trailingComma shape) comma
  | token {slot t rest cause} : (∀ s, cause ≠ .trailingComma s) →
      ¬ slot.Completable o depth [t] → Fails o shape depth slot (t :: rest) cause t
  | nested {slot first rest nested cause t} : slot.isFilled = false →
      first.kind.shape? = some nested → o.ignores first.group = false → depth < o.maxDepth →
      (build nested o depth first rest).outcome.result = .error (.blame cause t) →
      Fails o shape depth slot (first :: rest) cause t

section Refusals

variable {o : Options} {depth : Int} {slot : Slot} {t : Token} {passed : List Token}

theorem Slot.not_completable
    (refused : ∀ more, (elements .array o depth slot (passed ++ more)).succeeds = false) :
    ¬ slot.Completable o depth passed := by
  rintro ⟨more, accepts⟩
  have succeeds := (accepts_iff .array).mp accepts
  rw [refused more] at succeeds
  cases succeeds

/-- What is not read as an element, whatever follows, ends every list. -/
theorem Slot.not_completable_of_unread (seen : o.ignores t.group = false) (comma : t.kind ≠ .comma)
    (starts : t.kind.startsElement = true) (free : slot.isFilled = false)
    (unread : ∀ more, (read o depth t (passed ++ more)).outcome.succeeds = false) :
    ¬ slot.Completable o depth (t :: passed) := by
  refine not_completable fun more => ?_
  rw [List.cons_append, elements_item seen comma starts free, Bool.eq_false_iff]
  intro succeeds
  obtain ⟨_, run⟩ := Traced.succeeds_iff.mp succeeds
  obtain ⟨_, here, _⟩ := Traced.result_bind_eq_ok.mp run
  have read := Traced.succeeds_iff.mpr ⟨_, here⟩
  rw [unread more] at read
  cases read

end Refusals

/-- A list whose reading fails is read up to where it fails. -/
theorem elements_fails {shape : Shape} {o : Options} {depth : Int} {slot : Slot}
    {tokens : List Token} {cause : Cause} {t : Token} (supported : slot.Supported o depth)
    (run : (elements shape o depth slot tokens).result = .error (.blame cause t)) :
    (slot = .after t ∧ o.Skips tokens ∧ cause = .trailingComma shape) ∨
      ∃ passed next rest, tokens = passed ++ rest ∧ slot.Reads o depth passed next ∧
        next.Supported o depth ∧ next.Fails o shape depth rest cause t := by
  induction shape, depth, slot, tokens using elements_induction o with
  | nil shape depth slot =>
    cases slot with
    | after comma =>
      rw [elements_nil_after] at run
      cases run
      exact Or.inl ⟨rfl, o.skips_nil, rfl⟩
    | first =>
      rw [elements_nil (by simp)] at run
      cases run
    | filled =>
      rw [elements_nil (by simp)] at run
      cases run
  | skip shape depth slot u rest ignored ih =>
    rw [elements_skip ignored] at run
    rcases ih supported run with ⟨same, skips, trailing⟩ | ⟨passed, next, ahead, rfl, reads, further⟩
    · exact Or.inl ⟨same, skips.cons ignored, trailing⟩
    · exact Or.inr ⟨u :: passed, next, ahead, rfl, (slot.reads_skip ignored).append reads, further⟩
  | comma shape depth slot u rest seen comma ih =>
    rw [elements_comma seen comma] at run
    cases filled : slot.isFilled with
    | true =>
      cases slot <;> simp only [Slot.isFilled, reduceCtorEq] at filled
      have again : (Slot.after u).Supported o depth := fun _ => supported (by simp)
      rcases ih again run with ⟨⟨⟩, skips, rfl⟩ | ⟨passed, next, ahead, rfl, reads, further⟩
      · exact Or.inr ⟨[], .filled, t :: rest, rfl, Slot.reads_nil _, supported,
          .trailing comma seen skips⟩
      · exact Or.inr ⟨u :: passed, next, ahead, rfl, (Slot.reads_comma seen comma).append reads, further⟩
    | false =>
      rw [filled] at run
      cases run
      refine Or.inr ⟨[], slot, t :: rest, rfl, slot.reads_nil, supported, .token nofun ?_⟩
      refine Slot.not_completable fun more => ?_
      rw [List.singleton_append, elements_comma seen comma, filled]
      rfl
  | unexpected shape depth slot u rest seen comma starts =>
    rw [elements_unexpected seen comma starts] at run
    cases run
    refine Or.inr ⟨[], slot, t :: rest, rfl, slot.reads_nil, supported, .token nofun ?_⟩
    refine Slot.not_completable fun more => ?_
    rw [List.singleton_append, elements_unexpected seen comma starts]
    rfl
  | missing shape depth u rest seen comma starts =>
    rw [elements_missing seen comma starts] at run
    cases run
    refine Or.inr ⟨[], .filled, t :: rest, rfl, Slot.reads_nil _, supported, .token nofun ?_⟩
    refine Slot.not_completable fun more => ?_
    rw [List.singleton_append, elements_missing seen comma starts]
    rfl
  | item shape depth slot u rest seen comma starts free inside ih =>
    rw [elements_item seen comma starts free] at run
    rcases Traced.result_bind_eq_error.mp run with here | ⟨node, first, behind⟩
    · refine Or.inr ⟨[], slot, u :: rest, rfl, slot.reads_nil, supported, ?_⟩
      rcases read_error_cases here with ⟨string, ⟨⟩, literal⟩ | ⟨nested, begins, failed⟩
      · refine .token nofun (Slot.not_completable_of_unread seen comma starts free fun more => ?_)
        rw [read_of_string string, literal]
        rfl
      · by_cases deep : o.maxDepth ≤ depth
        · rw [build_of_error (Shape.locate_of_deep deep nested u rest)] at failed
          cases failed
          refine .token nofun (Slot.not_completable_of_unread seen comma starts free fun more => ?_)
          rw [read_of_shape begins, build_of_error (Shape.locate_of_deep deep nested t _)]
          rfl
        · exact .nested free begins seen (Int.not_le.mp deep) failed
    · rcases Traced.result_bind_eq_error.mp behind with later | ⟨_, _, done⟩
      · have element := Element.of_contents seen starts
          (fun nested extent nodes _ _ content => elements_derives content) first
        have again : Slot.filled.Supported o depth := fun _ => ⟨_, node, element⟩
        rcases ih again later with ⟨⟨⟩, _⟩ | ⟨passed, next, ahead, split, reads, further⟩
        refine Or.inr ⟨(u :: rest.take (read o depth u rest).advances) ++ passed, next, ahead, ?_,
          (Slot.reads_item free element).append reads, further⟩
        rw [List.append_assoc, ← split, List.cons_append, List.take_append_drop]
      · cases done

/-- With `t`, and with no token before it, a list can no longer be completed.
A name that cannot be written is told only when its call is read in full, and
so is left aside here. -/
def Slot.SpoiltBy (o : Options) (depth : Int) (slot : Slot) (tokens : List Token) (t : Token) :
    Prop :=
  ∃ before behind, tokens = before ++ t :: behind ∧
    (o.Named before → slot.Completable o depth before) ∧ ¬ slot.Completable o depth (before ++ [t])

/-- With `t`, and with no token before it, a structure whose first token is
read can no longer be read in full. -/
def Shape.SpoiltBy (o : Options) (depth : Int) (shape : Shape) (first : Token)
    (tokens : List Token) (t : Token) : Prop :=
  ∃ before behind, tokens = before ++ t :: behind ∧
    (o.Named before → ∃ more, shape.Body o depth (before ++ more)) ∧
    ∀ more, (build shape o depth first (before ++ t :: more)).outcome.succeeds = false

section Spoilt

variable {o : Options} {depth : Int} {slot next : Slot} {cause : Cause} {t : Token}
  {rest : List Token}

theorem Slot.Reads.spoiltBy {passed : List Token} (reads : slot.Reads o depth passed next)
    (spoilt : next.SpoiltBy o depth rest t) : slot.SpoiltBy o depth (passed ++ rest) t := by
  obtain ⟨before, behind, rfl, completable, ends⟩ := spoilt
  refine ⟨passed ++ before, behind, (List.append_assoc ..).symm, fun named => ?_, ?_⟩
  · exact reads.completable.mpr (completable (named.mono (List.subset_append_right passed before)))
  · rw [List.append_assoc, reads.completable]
    exact ends

theorem Shape.SpoiltBy.nested {nested : Shape} {first : Token}
    (spoilt : nested.SpoiltBy o depth first rest t) (free : slot.isFilled = false)
    (begins : first.kind.shape? = some nested) (seen : o.ignores first.group = false)
    (shallow : depth < o.maxDepth) : slot.SpoiltBy o depth (first :: rest) t := by
  obtain ⟨before, behind, rfl, continues, ends⟩ := spoilt
  obtain ⟨comma, starts⟩ := Kind.starts_of_shape? begins
  refine ⟨first :: before, behind, rfl, fun named => ?_, ?_⟩
  · obtain ⟨more, body⟩ := continues (named.mono (List.subset_cons_self first before))
    exact body.completable begins seen shallow (named.head begins seen) free
  · rw [List.cons_append]
    refine Slot.not_completable_of_unread seen comma starts free fun others => ?_
    rw [read_of_shape begins, List.append_assoc, List.singleton_append]
    exact ends others

/-- A structure fails on its first wrong token if its list does. What also
may be wrong is the token in place of its opening bracket. -/
theorem build_spoilt {shape : Shape} {first : Token} (parens : o.ignores .parenthesis = false)
    (shallow : depth < o.maxDepth)
    (prompt : ∀ s, cause ≠ .trailingComma s ∧ cause ≠ .unterminated s)
    (content : ∀ inner, inner.length < rest.length →
      (elements shape o (depth + 1) .first inner).result = .error (.blame cause t) →
      Slot.first.SpoiltBy o (depth + 1) inner t)
    (run : (build shape o depth first rest).outcome.result = .error (.blame cause t)) :
    shape.SpoiltBy o depth first rest t := by
  rcases build_error_cases run with ⟨deep, _⟩ | ⟨⟨⟩⟩ |
    ⟨_, rfl, gap, u, after, rfl, skips, seen, other, same⟩ | ⟨extent, found, failed⟩ | ⟨_, ⟨⟩⟩
  · omega
  · exact absurd rfl (prompt shape).2
  · obtain ⟨rfl, _⟩ := Fault.blame_of_missingParen same.symm
    refine ⟨gap, after, rfl, fun _ => ?_, fun more => ?_⟩
    · have leads : Lead o .call (gap ++ [.bare .openParen]) := .call skips rfl parens
      obtain ⟨more, body⟩ := Shape.body_of_completable leads Slot.supported_first.completable
      exact ⟨_, by simpa using body⟩
    · rw [build_of_error (Shape.locate_of_other shallow skips seen other first)]
      rfl
  · obtain ⟨_, lead, behind, leads, rfl, _, enclosing⟩ := Shape.locate_eq_ok_iff.mp found
    obtain ⟨before, later, inner, completable, ends⟩ :=
      content extent.inner (Shape.length_inner_locate found) failed
    obtain ⟨closer, after, _, rfl, _⟩ := Shape.enclosed_split enclosing
    rw [inner] at enclosing ⊢
    refine ⟨lead ++ before, later ++ closer :: after, by simp, ?_, fun more => ?_⟩
    · intro named
      exact Shape.body_of_completable leads
        (completable (named.mono (List.subset_append_right lead before)))
    · rw [Bool.eq_false_iff]
      intro succeeds
      have unclosed : shape.enclosed 0 ((before ++ [t]) ++ (later ++ closer :: after)) =
          some ((before ++ [t]) ++ later) := by simpa using enclosing
      have further :
          (build shape o depth first (lead ++ ((before ++ [t]) ++ more))).outcome.succeeds = true := by
        simpa using succeeds
      exact ends (Shape.completable_of_succeeds shallow leads unclosed further)

/-- A list that fails otherwise than on a comma at its end, or on a structure
without end, fails on its first wrong token. -/
theorem elements_spoilt {shape : Shape} {tokens : List Token}
    (parens : o.ignores .parenthesis = false)
    (prompt : ∀ s, cause ≠ .trailingComma s ∧ cause ≠ .unterminated s)
    (run : (elements shape o depth .first tokens).result = .error (.blame cause t)) :
    Slot.first.SpoiltBy o depth tokens t := by
  induction length : tokens.length using Nat.strongRecOn generalizing shape depth tokens with
  | ind n ih =>
    subst length
    rcases elements_fails Slot.supported_first run with ⟨⟨⟩, _⟩ |
      ⟨passed, next, rest, rfl, reads, supported, fails⟩
    refine reads.spoiltBy ?_
    cases fails with
    | trailing => exact absurd rfl (prompt shape).1
    | @token _ _ rest _ _ ends => exact ⟨[], rest, rfl, fun _ => supported.completable, ends⟩
    | @nested _ first rest nested _ _ free begins seen shallow failed =>
      refine (build_spoilt parens shallow prompt ?_ failed).nested free begins seen shallow
      intro inner shorter content
      refine ih inner.length ?_ content rfl
      simp only [List.length_append, List.length_cons]
      omega

end Spoilt

end RuleForest
