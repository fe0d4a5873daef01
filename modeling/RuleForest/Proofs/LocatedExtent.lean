import RuleForest.Proofs.BracketCount

namespace RuleForest

/-- A run of tokens that the options pass over. -/
def Options.Skips (o : Options) (tokens : List Token) : Prop :=
  ∀ t ∈ tokens, o.ignores t.group = true

theorem Options.skips_nil (o : Options) : o.Skips [] := nofun

theorem Options.Skips.cons {o : Options} {t : Token} {rest : List Token}
    (ignored : o.ignores t.group = true) (skips : o.Skips rest) : o.Skips (t :: rest) :=
  List.forall_mem_cons.mpr ⟨ignored, skips⟩

/-- Either everything is passed over, or there is a first token that is not. -/
theorem Options.skips_or_split (o : Options) (tokens : List Token) :
    o.Skips tokens ∨ ∃ gap t after,
      tokens = gap ++ t :: after ∧ o.Skips gap ∧ o.ignores t.group = false := by
  induction tokens with
  | nil => exact Or.inl o.skips_nil
  | cons t rest ih =>
    cases ignored : o.ignores t.group with
    | false => exact Or.inr ⟨[], t, rest, rfl, o.skips_nil, ignored⟩
    | true =>
      rcases ih with skips | ⟨gap, u, after, rfl, skips, seen⟩
      · exact Or.inl (skips.cons ignored)
      · exact Or.inr ⟨t :: gap, u, after, rfl, skips.cons ignored, seen⟩

/-- The group of the brackets of a shape. -/
def Shape.group : Shape → Group
  | .array => .squareBracket
  | .call => .parenthesis

theorem Shape.group_opener (shape : Shape) : shape.opener.group = shape.group := by
  cases shape <;> rfl

theorem Shape.group_closer (shape : Shape) : shape.closer.group = shape.group := by
  cases shape <;> rfl

/-- Brackets that are not passed over are not among the passed tokens. -/
theorem Options.Skips.balanced {o : Options} {tokens : List Token} (skips : o.Skips tokens)
    {shape : Shape} (seen : o.ignores shape.group = false) : shape.Balanced tokens := by
  refine Shape.balanced_of_forall fun t member => ⟨?_, ?_⟩
  · intro opens
    have ignored := skips t member
    rw [Token.group, opens, shape.group_opener, seen] at ignored
    cases ignored
  · intro closes
    have ignored := skips t member
    rw [Token.group, closes, shape.group_closer, seen] at ignored
    cases ignored

/-- What stands between the first token of a structure and its content: for
an array nothing, for a call its opening bracket behind passed tokens. -/
inductive Lead (o : Options) : Shape → List Token → Prop
  | array : Lead o .array []
  | call {gap : List Token} {opener : Token} : o.Skips gap → opener.kind = .openParen →
      o.ignores .parenthesis = false → Lead o .call (gap ++ [opener])

namespace Shape

theorem lead_call {o : Options} {first t : Token} {gap after : List Token} (skips : o.Skips gap)
    (seen : o.ignores t.group = false) :
    Shape.call.lead o first (gap ++ t :: after) =
      if t.kind = .openParen then .ok (gap.length + 1)
      else .error ⟨gap.length + 1, .missingParen first t⟩ := by
  have taken : (gap ++ t :: after).takeWhile (fun t => o.ignores t.group) = gap := by
    rw [List.takeWhile_append_of_pos skips, List.takeWhile_cons_of_neg (by simp [seen]),
      List.append_nil]
  simp only [lead, taken, List.getElem?_append_right (Nat.le_refl _), Nat.sub_self,
    List.getElem?_cons_zero]

theorem lead_of_skips {o : Options} {first : Token} {rest : List Token} (skips : o.Skips rest) :
    Shape.call.lead o first rest = .error (Shape.call.unterminated first rest) := by
  have taken : rest.takeWhile (fun t => o.ignores t.group) = rest := by
    rw [← List.append_nil rest, List.takeWhile_append_of_pos skips, List.takeWhile_nil]
  simp only [lead, taken, List.getElem?_eq_none (Nat.le_refl _)]

theorem lead_of_lead {o : Options} {shape : Shape} {lead : List Token} (leads : Lead o shape lead)
    (first : Token) (content : List Token) :
    shape.lead o first (lead ++ content) = .ok lead.length := by
  cases leads with
  | array => rfl
  | @call gap opener skips opens seen =>
    have visible : o.ignores opener.group = false := by rw [Token.group, opens]; exact seen
    rw [List.append_assoc, List.singleton_append, lead_call skips visible, if_pos opens,
      List.length_append, List.length_singleton]

/-- The search for the opening bracket ends at it, at another token that is
not passed over, or at the end of the tokens. -/
theorem lead_cases (shape : Shape) (o : Options) (rest : List Token) :
    (∃ lead content, Lead o shape lead ∧ rest = lead ++ content) ∨
      (shape = .call ∧ o.Skips rest) ∨
      (shape = .call ∧ ∃ gap t after, rest = gap ++ t :: after ∧ o.Skips gap ∧
        o.ignores t.group = false ∧ t.kind ≠ .openParen) := by
  cases shape with
  | array => exact Or.inl ⟨[], rest, .array, rfl⟩
  | call =>
    rcases o.skips_or_split rest with skips | ⟨gap, t, after, rfl, skips, seen⟩
    · exact Or.inr (Or.inl ⟨rfl, skips⟩)
    · by_cases opens : t.kind = .openParen
      · refine Or.inl ⟨gap ++ [t], after, .call skips opens ?_, by simp⟩
        rwa [Token.group, opens] at seen
      · exact Or.inr (Or.inr ⟨rfl, gap, t, after, rfl, skips, seen, opens⟩)

/-- A passed token behind the name of a call only moves its opening bracket. -/
theorem lead_skip {o : Options} {first t : Token} {rest : List Token}
    (ignored : o.ignores t.group = true) :
    Shape.call.lead o first (t :: rest) =
      match Shape.call.lead o first rest with
      | .ok n => .ok (n + 1)
      | .error stop => .error ⟨stop.advances + 1, stop.fault⟩ := by
  rcases o.skips_or_split rest with skips | ⟨gap, u, after, rfl, skips, seen⟩
  · rw [lead_of_skips skips, lead_of_skips (skips.cons ignored)]
    rfl
  · rw [lead_call skips seen, ← List.cons_append, lead_call (skips.cons ignored) seen]
    split <;> rfl

theorem locate_of_deep {o : Options} {depth : Int} (deep : o.maxDepth ≤ depth) (shape : Shape)
    (first : Token) (rest : List Token) :
    shape.locate o depth first rest = .error ⟨0, .blame (.tooDeep shape o.maxDepth) first⟩ :=
  if_pos deep

theorem locate_of_lead {o : Options} {depth : Int} {shape : Shape} {lead : List Token}
    (shallow : depth < o.maxDepth) (leads : Lead o shape lead) (first : Token)
    (content : List Token) :
    shape.locate o depth first (lead ++ content) =
      match shape.enclosed 0 content with
      | some inner => .ok ⟨lead.length, inner⟩
      | none => .error (shape.unterminated first (lead ++ content)) := by
  rw [locate, if_neg (Int.not_le.mpr shallow), lead_of_lead leads]
  cases enclosing : shape.enclosed 0 content <;> simp only [List.drop_left, enclosing]

theorem locate_of_skips {o : Options} {depth : Int} {rest : List Token}
    (shallow : depth < o.maxDepth) (skips : o.Skips rest) (first : Token) :
    Shape.call.locate o depth first rest = .error (Shape.call.unterminated first rest) := by
  rw [locate, if_neg (Int.not_le.mpr shallow), lead_of_skips skips]

theorem locate_of_other {o : Options} {depth : Int} {gap after : List Token} {t : Token}
    (shallow : depth < o.maxDepth) (skips : o.Skips gap) (seen : o.ignores t.group = false)
    (other : t.kind ≠ .openParen) (first : Token) :
    Shape.call.locate o depth first (gap ++ t :: after) =
      .error ⟨gap.length + 1, .missingParen first t⟩ := by
  rw [locate, if_neg (Int.not_le.mpr shallow), lead_call skips seen, if_neg other]

/-- A structure is located exactly where the limit allows it, its opening
bracket is next, and its closer follows. -/
theorem locate_eq_ok_iff {shape : Shape} {o : Options} {depth : Int} {first : Token}
    {rest : List Token} {extent : Extent} :
    shape.locate o depth first rest = .ok extent ↔
      depth < o.maxDepth ∧ ∃ lead content, Lead o shape lead ∧ rest = lead ++ content ∧
        extent.lead = lead.length ∧ shape.enclosed 0 content = some extent.inner := by
  constructor
  · intro found
    by_cases deep : o.maxDepth ≤ depth
    · rw [locate_of_deep deep] at found
      cases found
    have shallow : depth < o.maxDepth := Int.not_le.mp deep
    rcases shape.lead_cases o rest with ⟨lead, content, leads, rfl⟩ | ⟨rfl, skips⟩ |
      ⟨rfl, gap, t, after, rfl, skips, seen, other⟩
    · rw [locate_of_lead shallow leads] at found
      split at found
      · rename_i inner enclosing
        cases found
        exact ⟨shallow, lead, content, leads, rfl, rfl, enclosing⟩
      · cases found
    · rw [locate_of_skips shallow skips] at found
      cases found
    · rw [locate_of_other shallow skips seen other] at found
      cases found
  · rintro ⟨shallow, lead, content, leads, rfl, length, enclosing⟩
    rw [locate_of_lead shallow leads, enclosing, ← length]

/-- A found extent does not depend on the tokens behind its closer. -/
theorem locate_split {shape : Shape} {o : Options} {depth : Int} {first : Token}
    {rest : List Token} {extent : Extent} (found : shape.locate o depth first rest = .ok extent) :
    ∃ lead closer after, Lead o shape lead ∧ closer.kind = shape.closer ∧
      rest = lead ++ extent.inner ++ closer :: after ∧
      extent.advances = (lead ++ extent.inner).length + 1 ∧
      ∀ others, shape.locate o depth first (lead ++ extent.inner ++ closer :: others) = .ok extent := by
  obtain ⟨shallow, lead, content, leads, rfl, length, enclosing⟩ := locate_eq_ok_iff.mp found
  obtain ⟨closer, after, closes, rfl, exchange⟩ := enclosed_split enclosing
  refine ⟨lead, closer, after, leads, closes, (List.append_assoc ..).symm, ?_, ?_⟩
  · rw [Extent.advances, length, List.length_append]
  · intro others
    exact locate_eq_ok_iff.mpr
      ⟨shallow, lead, _, leads, List.append_assoc .., length, exchange others⟩

end Shape
end RuleForest
