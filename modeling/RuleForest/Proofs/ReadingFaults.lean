import RuleForest.Proofs.ReadingSteps

namespace RuleForest

variable {o : Options} {depth : Int} {shape : Shape} {first : Token} {rest : List Token}
  {fault : Fault}

theorem StringLiteral.leaf_eq_error {t : Token} (run : StringLiteral.leaf t = .error fault) :
    fault = .blame .malformedString t := by
  unfold StringLiteral.leaf at run
  split at run
  · split at run
    · cases run
    · exact (Except.error.inj run).symm
  · exact (Except.error.inj run).symm

/-- A fault over a token that is not passed over: the token is blamed, or it
has a name that cannot be written. -/
inductive Fault.Among (o : Options) (tokens : List Token) : Fault → Prop
  | blame {cause t} : t ∈ tokens → o.ignores t.group = false → Among o tokens (.blame cause t)
  | unwritable {t} : t ∈ tokens → o.ignores t.group = false → t.LacksName →
      Among o tokens .unwritable

theorem Fault.Among.mono {tokens others : List Token} (among : fault.Among o tokens)
    (within : tokens ⊆ others) : fault.Among o others := by
  cases among with
  | blame member seen => exact .blame (within member) seen
  | unwritable member seen nameless => exact .unwritable (within member) seen nameless

/-- Why a structure is not read: it is nested too deep, its opening bracket
or its closer is missing, something is wrong with its content, or it cannot be
named after that. -/
theorem build_error_cases (run : (build shape o depth first rest).outcome.result = .error fault) :
    (o.maxDepth ≤ depth ∧ fault = .blame (.tooDeep shape o.maxDepth) first) ∨
      (fault = .blame (.unterminated shape) first) ∨
      (depth < o.maxDepth ∧ shape = .call ∧ ∃ gap t after, rest = gap ++ t :: after ∧
        o.Skips gap ∧ o.ignores t.group = false ∧ t.kind ≠ .openParen ∧
        fault = .missingParen first t) ∨
      (∃ extent, shape.locate o depth first rest = .ok extent ∧
        (elements shape o (depth + 1) .first extent.inner).result = .error fault) ∨
      (shape.isNamed first = false ∧ fault = .unwritable) := by
  by_cases deep : o.maxDepth ≤ depth
  · rw [build_of_error (Shape.locate_of_deep deep shape first rest)] at run
    exact Or.inl ⟨deep, (Except.error.inj run).symm⟩
  have shallow : depth < o.maxDepth := Int.not_le.mp deep
  rcases shape.lead_cases o rest with ⟨lead, content, leads, rfl⟩ | ⟨rfl, skips⟩ |
    ⟨rfl, gap, t, after, rfl, skips, seen, other⟩
  · have located := Shape.locate_of_lead shallow leads first content
    cases enclosing : shape.enclosed 0 content with
    | none =>
      rw [enclosing] at located
      rw [build_of_error located] at run
      exact Or.inr (Or.inl (Except.error.inj run).symm)
    | some inner =>
      rw [enclosing] at located
      rw [build_of_ok located] at run
      rcases Shape.finish_eq_error_iff.mp run with failed | ⟨_, unnamed, same⟩
      · exact Or.inr (Or.inr (Or.inr (Or.inl ⟨_, located, failed⟩)))
      · exact Or.inr (Or.inr (Or.inr (Or.inr ⟨unnamed, same⟩)))
  · rw [build_of_error (Shape.locate_of_skips shallow skips first)] at run
    exact Or.inr (Or.inl (Except.error.inj run).symm)
  · rw [build_of_error (Shape.locate_of_other shallow skips seen other first)] at run
    exact Or.inr (Or.inr (Or.inl ⟨shallow, rfl, gap, t, after, rfl, skips, seen, other,
      (Except.error.inj run).symm⟩))

/-- A structure that the limit does not allow fails with nothing else. -/
theorem build_shallow_or_tooDeep {cause : Cause} {t : Token}
    (run : (build shape o depth first rest).outcome.result = .error (.blame cause t)) :
    depth < o.maxDepth ∨ cause = .tooDeep shape o.maxDepth := by
  by_cases deep : o.maxDepth ≤ depth
  · rw [build_of_error (Shape.locate_of_deep deep shape first rest)] at run
    cases run
    exact Or.inr rfl
  · exact Or.inl (Int.not_le.mp deep)

/-- Only literals and structures are read with faults. -/
theorem read_error_cases {t : Token} (run : (read o depth t rest).outcome.result = .error fault) :
    (t.kind = .string ∧ fault = .blame .malformedString t ∧
        StringLiteral.leaf t = .error fault) ∨
      ∃ nested, t.kind.shape? = some nested ∧
        (build nested o depth t rest).outcome.result = .error fault := by
  rcases t.cases_kind with string | ⟨nested, begins⟩ | plain
  · rw [read_of_string string] at run
    cases literal : StringLiteral.leaf t with
    | ok leaf =>
      rw [literal] at run
      cases run
    | error other =>
      rw [literal] at run
      cases run
      exact Or.inl ⟨string, StringLiteral.leaf_eq_error literal, rfl⟩
  · rw [read_of_shape begins] at run
    exact Or.inr ⟨nested, begins, run⟩
  · rw [read_of_plain plain] at run
    cases run

/-- A fault of a structure is over its first token or one behind it, if the
faults of its content are over the tokens between its brackets. -/
theorem build_among (begins : first.kind.shape? = some shape) (seen : o.ignores first.group = false)
    (inside : ∀ extent, shape.locate o depth first rest = .ok extent →
      (elements shape o (depth + 1) .first extent.inner).result = .error fault →
      fault.Among o extent.inner)
    (run : (build shape o depth first rest).outcome.result = .error fault) :
    fault.Among o (first :: rest) := by
  rcases build_error_cases run with ⟨_, rfl⟩ | rfl |
    ⟨_, rfl, gap, t, after, rfl, _, visible, _, rfl⟩ | ⟨extent, found, content⟩ | ⟨unnamed, rfl⟩
  · exact .blame List.mem_cons_self seen
  · exact .blame List.mem_cons_self seen
  · rcases Fault.missingParen_cases first t with ⟨_, name, same⟩ | ⟨unwritable, same⟩
    · rw [same]
      exact .blame (by simp) visible
    · rw [same]
      exact .unwritable List.mem_cons_self seen ⟨Kind.shape?_eq_some_iff.mp begins, unwritable⟩
  · obtain ⟨lead, closer, after, _, _, rfl, _⟩ := Shape.locate_split found
    exact (inside extent found content).mono fun t member => by simp [member]
  · exact .unwritable List.mem_cons_self seen ((Token.lacksName_iff begins).mpr unnamed)

/-- A fault in a list is over a token of the list, or it blames the comma
behind which the list is read. -/
theorem elements_among {slot : Slot} {tokens : List Token}
    (run : (elements shape o depth slot tokens).result = .error fault) :
    fault.Among o tokens ∨ ∃ cause comma, slot = .after comma ∧ fault = .blame cause comma := by
  induction shape, depth, slot, tokens using elements_induction o generalizing fault with
  | nil shape depth slot =>
    cases slot with
    | after comma =>
      rw [elements_nil_after] at run
      exact Or.inr ⟨_, comma, rfl, (Except.error.inj run).symm⟩
    | first =>
      rw [elements_nil (by simp)] at run
      cases run
    | filled =>
      rw [elements_nil (by simp)] at run
      cases run
  | skip shape depth slot t rest ignored ih =>
    rw [elements_skip ignored] at run
    exact (ih run).imp_left fun among => among.mono (List.subset_cons_self t rest)
  | comma shape depth slot t rest seen comma ih =>
    rw [elements_comma seen comma] at run
    split at run
    · rcases ih run with among | ⟨cause, _, ⟨⟩, rfl⟩
      · exact Or.inl (among.mono (List.subset_cons_self t rest))
      · exact Or.inl (.blame List.mem_cons_self seen)
    · cases run
      exact Or.inl (.blame List.mem_cons_self seen)
  | unexpected shape depth slot t rest seen comma starts =>
    rw [elements_unexpected seen comma starts] at run
    cases run
    exact Or.inl (.blame List.mem_cons_self seen)
  | missing shape depth t rest seen comma starts =>
    rw [elements_missing seen comma starts] at run
    cases run
    exact Or.inl (.blame List.mem_cons_self seen)
  | item shape depth slot t rest seen comma starts free inside ih =>
    rw [elements_item seen comma starts free] at run
    left
    rcases Traced.result_bind_eq_error.mp run with here | ⟨node, _, behind⟩
    · rcases read_error_cases here with ⟨_, rfl, _⟩ | ⟨nested, begins, failed⟩
      · exact .blame List.mem_cons_self seen
      · refine build_among begins seen (fun extent found content => ?_) failed
        rcases inside nested extent begins found content with among | ⟨_, _, ⟨⟩, _⟩
        exact among
    · rcases Traced.result_bind_eq_error.mp behind with later | ⟨_, _, done⟩
      · rcases ih later with among | ⟨_, _, ⟨⟩, _⟩
        exact among.mono fun u member => List.mem_cons_of_mem t (List.mem_of_mem_drop member)
      · cases done

/-- A structure is read, a token is blamed, or some name cannot be written. -/
theorem build_blames (run : (build shape o depth first rest).outcome.result = .error fault) :
    fault = .unwritable ∨ ∃ cause t, fault = .blame cause t := by
  rcases build_error_cases run with ⟨_, same⟩ | same | ⟨_, _, _, t, _, _, _, _, _, rfl⟩ |
    ⟨extent, _, content⟩ | ⟨_, same⟩
  · exact Or.inr ⟨_, first, same⟩
  · exact Or.inr ⟨_, first, same⟩
  · rcases Fault.missingParen_cases first t with ⟨_, _, same⟩ | ⟨_, same⟩
    · exact Or.inr ⟨_, t, same⟩
    · exact Or.inl same
  · rcases elements_among content with among | ⟨_, _, ⟨⟩, _⟩
    cases among with
    | blame => exact Or.inr ⟨_, _, rfl⟩
    | unwritable => exact Or.inl rfl
  · exact Or.inl same

theorem read_blames {t : Token} (run : (read o depth t rest).outcome.result = .error fault) :
    fault = .unwritable ∨ ∃ cause u, fault = .blame cause u := by
  rcases read_error_cases run with ⟨_, same, _⟩ | ⟨nested, _, failed⟩
  · exact Or.inr ⟨_, t, same⟩
  · exact build_blames failed

/-- Whatever the tokens, a forest is read, a token of it is blamed, or some
name cannot be written. -/
theorem forest_blames {tokens : List Token}
    (run : (forest o depth tokens).outcome.result = .error fault) :
    fault = .unwritable ∨ ∃ cause t, fault = .blame cause t := by
  induction tokens using forest_induction o depth with
  | nil =>
    rw [forest] at run
    cases run
  | node t rest ih =>
    rw [forest] at run
    rcases Traced.result_bind_eq_error.mp run with here | ⟨node, _, behind⟩
    · exact read_blames here
    · rcases Traced.result_bind_eq_error.mp behind with later | ⟨_, _, done⟩
      · exact ih later
      · cases done

end RuleForest
