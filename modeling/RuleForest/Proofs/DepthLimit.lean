import RuleForest.Proofs.ReadingFaults

namespace RuleForest

/-- The same options with another limit on the nesting. -/
def Options.limited (o : Options) (limit : Int) : Options :=
  { o with maxDepth := limit }

/-- The run fails because something is nested too deep. -/
def Traced.TooDeep {α : Type} (run : Traced α) : Prop :=
  ∃ fault, run.result = .error fault ∧ fault.category = .tooDeep

/-- The same run with its fault, if it has one, replaced. -/
def Traced.mapFault {α : Type} (f : Fault → Fault) (run : Traced α) : Traced α :=
  ⟨run.events, run.result.mapError f⟩

/-- The same cause with another number in the text about the limit. -/
def Cause.shiftLimit (k : Int) : Cause → Cause
  | .tooDeep shape limit => .tooDeep shape (limit + k)
  | cause => cause

def Fault.shiftLimit (k : Int) : Fault → Fault
  | .parse cause token => .parse (cause.shiftLimit k) token
  | fault => fault

namespace Traced

variable {α β : Type} {run : Traced α} {next other : α → Traced β} {f : Fault → Fault}

theorem bind_congr (same : ∀ a, run.result = .ok a → next a = other a) :
    (run >>= next) = (run >>= other) := by
  rcases run with ⟨events, fault | a⟩
  · rfl
  · rw [mk_ok_bind, mk_ok_bind, same a rfl]

theorem mapFault_bind :
    (run >>= next).mapFault f = run.mapFault f >>= fun a => (next a).mapFault f := by
  rcases run with ⟨events, fault | a⟩ <;> rfl

theorem TooDeep.bind (deep : run.TooDeep) : (run >>= next).TooDeep := by
  obtain ⟨fault, failed, family⟩ := deep
  exact ⟨fault, result_bind_eq_error.mpr (Or.inl failed), family⟩

theorem TooDeep.bind_next {a : α} (done : run.result = .ok a) (deep : (next a).TooDeep) :
    (run >>= next).TooDeep := by
  obtain ⟨fault, failed, family⟩ := deep
  exact ⟨fault, result_bind_eq_error.mpr (Or.inr ⟨a, done, failed⟩), family⟩

theorem not_tooDeep {a : α} (done : run.result = .ok a) : ¬ run.TooDeep := by
  rintro ⟨fault, failed, _⟩
  cases done.symm.trans failed

theorem mapFault_eq_ok {a : α} : (run.mapFault f).result = .ok a ↔ run.result = .ok a := by
  rcases run with ⟨events, fault | b⟩
  · exact iff_of_false (fun done => by cases done) fun done => by cases done
  · exact Iff.rfl

end Traced

theorem Fault.shiftLimit_zero (fault : Fault) : fault.shiftLimit 0 = fault := by
  rcases fault with _ | ⟨cause, token⟩
  case parse =>
    cases cause with
    | tooDeep shape limit => simp only [shiftLimit, Cause.shiftLimit, Int.add_zero]
    | _ => rfl
  all_goals rfl

theorem Fault.shiftLimit_missingParen (k : Int) (first t : Token) :
    (missingParen first t).shiftLimit k = missingParen first t := by
  rcases missingParen_cases first t with ⟨_, _, same⟩ | ⟨_, same⟩ <;> rw [same] <;> rfl

theorem Shape.finish_mapFault (shape : Shape) (first : Token) (items : Traced (List Node))
    {f : Fault → Fault} (fixed : f .unwritable = .unwritable) :
    shape.finish first (items.mapFault f) = (shape.finish first items).mapFault f := by
  rw [finish, finish, Traced.mapFault_bind]
  refine congrArg _ (funext fun nodes => ?_)
  split
  · rfl
  · exact congrArg (fun fault => Traced.mk [] (.error fault)) fixed.symm

theorem Traced.mapFault_shiftLimit_zero {α : Type} (run : Traced α) :
    run.mapFault (Fault.shiftLimit 0) = run := by
  rcases run with ⟨events, fault | a⟩
  · exact congrArg (fun fault => Traced.mk events (.error fault)) fault.shiftLimit_zero
  · rfl

section Limit

variable {o : Options} {limit depth k : Int} {shape : Shape} {slot : Slot} {first t : Token}
  {rest tokens : List Token}

theorem Lead.limited {lead : List Token} (leads : Lead o shape lead) (limit : Int) :
    Lead (o.limited limit) shape lead := by
  cases leads with
  | array => exact .array
  | call skips opens seen => exact .call skips opens seen

/-- Where the limit allows a structure, its number does not matter. -/
theorem Shape.locate_limited (shallow : depth < o.maxDepth) (allowed : depth + k < limit) :
    shape.locate (o.limited limit) (depth + k) first rest =
      match shape.locate o depth first rest with
      | .ok extent => .ok extent
      | .error stop => .error ⟨stop.advances, stop.fault.shiftLimit k⟩ := by
  rcases shape.lead_cases o rest with ⟨lead, content, leads, rfl⟩ | ⟨rfl, skips⟩ |
    ⟨rfl, gap, t, after, rfl, skips, seen, other⟩
  · rw [locate_of_lead shallow leads, locate_of_lead allowed (leads.limited limit)]
    cases shape.enclosed 0 content <;> rfl
  · have again : (o.limited limit).Skips rest := skips
    rw [locate_of_skips shallow skips, locate_of_skips allowed again]
    rfl
  · have again : (o.limited limit).Skips gap := skips
    rw [locate_of_other shallow skips seen other, locate_of_other allowed again seen other]
    simp only [Fault.shiftLimit_missingParen]

theorem build_limited (above : o.maxDepth + k ≤ limit)
    (content : ∀ extent, shape.locate o depth first rest = .ok extent →
      ((elements shape o (depth + 1) .first extent.inner).TooDeep → o.maxDepth + k = limit) →
      elements shape (o.limited limit) (depth + 1 + k) .first extent.inner =
        (elements shape o (depth + 1) .first extent.inner).mapFault (Fault.shiftLimit k))
    (exact : (build shape o depth first rest).outcome.TooDeep → o.maxDepth + k = limit) :
    build shape (o.limited limit) (depth + k) first rest =
      ⟨(build shape o depth first rest).advances,
        (build shape o depth first rest).outcome.mapFault (Fault.shiftLimit k)⟩ := by
  by_cases deep : o.maxDepth ≤ depth
  · have located := Shape.locate_of_deep deep shape first rest
    have same : o.maxDepth + k = limit := by
      rw [build_of_error located] at exact
      exact exact ⟨_, rfl, rfl⟩
    have again : (o.limited limit).maxDepth ≤ depth + k := by
      rw [Options.limited, ← same]
      exact Int.add_le_add_right deep k
    rw [build_of_error located, build_of_error (Shape.locate_of_deep again shape first rest)]
    rw [Options.limited, ← same]
    rfl
  have shallow : depth < o.maxDepth := Int.not_le.mp deep
  have again := @Shape.locate_limited o limit depth k shape first rest shallow (by omega)
  cases found : shape.locate o depth first rest with
  | error stop =>
    rw [found] at again
    rw [build_of_error found, build_of_error again]
    rfl
  | ok extent =>
    rw [found] at again
    rw [build_of_ok found] at exact ⊢
    rw [build_of_ok again, Int.add_right_comm, content extent found fun deep => exact deep.bind,
      Shape.finish_mapFault shape first _ rfl]

/-- Reading under a limit and at a depth that are both moved is reading as
before, but for the number in a fault about the limit. A limit that is moved
further up makes no other difference than that such a fault may not arise. -/
theorem elements_limited (above : o.maxDepth + k ≤ limit)
    (exact : (elements shape o depth slot tokens).TooDeep → o.maxDepth + k = limit) :
    elements shape (o.limited limit) (depth + k) slot tokens =
      (elements shape o depth slot tokens).mapFault (Fault.shiftLimit k) := by
  induction shape, depth, slot, tokens using elements_induction o with
  | nil shape depth slot =>
    cases slot with
    | after comma => rw [elements_nil_after, elements_nil_after]; rfl
    | first => rw [elements_nil (by simp), elements_nil (by simp)]; rfl
    | filled => rw [elements_nil (by simp), elements_nil (by simp)]; rfl
  | skip shape depth slot t rest ignored ih =>
    have again : (o.limited limit).ignores t.group = true := ignored
    rw [elements_skip ignored] at exact ⊢
    rw [elements_skip again, ih exact]
  | comma shape depth slot t rest seen comma ih =>
    have again : (o.limited limit).ignores t.group = false := seen
    rw [elements_comma seen comma] at exact ⊢
    rw [elements_comma again comma]
    cases filled : slot.isFilled with
    | true =>
      rw [filled, if_pos rfl] at exact
      rw [if_pos rfl, if_pos rfl, ih exact]
    | false => rfl
  | unexpected shape depth slot t rest seen comma starts =>
    have again : (o.limited limit).ignores t.group = false := seen
    rw [elements_unexpected seen comma starts, elements_unexpected again comma starts]
    rfl
  | missing shape depth t rest seen comma starts =>
    have again : (o.limited limit).ignores t.group = false := seen
    rw [elements_missing seen comma starts, elements_missing again comma starts]
    rfl
  | item shape depth slot t rest seen comma starts free inside ih =>
    have again : (o.limited limit).ignores t.group = false := seen
    rw [elements_item seen comma starts free] at exact ⊢
    have reads : read (o.limited limit) (depth + k) t rest =
        ⟨(read o depth t rest).advances,
          (read o depth t rest).outcome.mapFault (Fault.shiftLimit k)⟩ := by
      rcases t.cases_kind with string | ⟨nested, begins⟩ | plain
      · rw [read_of_string string, read_of_string string]
        cases literal : StringLiteral.leaf t with
        | ok leaf => rfl
        | error fault =>
          rw [StringLiteral.leaf_eq_error literal]
          rfl
      · rw [read_of_shape begins] at exact ⊢
        rw [read_of_shape begins]
        exact build_limited above (fun extent found => inside nested extent begins found)
          fun deep => exact deep.bind
      · rw [read_of_plain plain, read_of_plain plain]
        rfl
    rw [elements_item again comma starts free, reads, Traced.mapFault_bind]
    refine Traced.bind_congr fun node done => ?_
    have further : (elements shape o depth .filled (rest.drop (read o depth t rest).advances)).TooDeep →
        o.maxDepth + k = limit :=
      fun deep => exact (Traced.TooDeep.bind_next (Traced.mapFault_eq_ok.mp done) deep.bind)
    rw [ih further, Traced.mapFault_bind]
    rfl

/-- With the limit and the depth moved alike, a structure is read alike, but
for the number in a fault about the limit. -/
theorem build_shift (shape : Shape) (o : Options) (depth k : Int) (first : Token)
    (rest : List Token) :
    build shape (o.limited (o.maxDepth + k)) (depth + k) first rest =
      ⟨(build shape o depth first rest).advances,
        (build shape o depth first rest).outcome.mapFault (Fault.shiftLimit k)⟩ :=
  build_limited (Int.le_refl _)
    (fun _ _ _ => elements_limited (Int.le_refl _) fun _ => rfl) fun _ => rfl

/-- A structure that is read without running into the limit is read alike
under every higher one. -/
theorem build_raised (above : o.maxDepth ≤ limit)
    (allowed : ¬ (build shape o depth first rest).outcome.TooDeep) :
    build shape (o.limited limit) depth first rest = build shape o depth first rest := by
  have higher : o.maxDepth + 0 ≤ limit := by omega
  have moved := @build_limited o limit depth 0 shape first rest higher
    (fun _ _ further => elements_limited higher further) fun deep => absurd deep allowed
  rwa [Int.add_zero, Traced.mapFault_shiftLimit_zero] at moved

end Limit

end RuleForest
