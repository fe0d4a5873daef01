import RuleForest.Proofs.FinishedStructures

namespace RuleForest

/-- Why a list does not go on with a token: the token is a comma out of
place, it may not stand in a list, no comma is before it, it is a malformed
literal, or the structure that it begins is nested too deep. -/
inductive Slot.Refuses (o : Options) (shape : Shape) (depth : Int) : Slot → Token → Cause → Prop
  | comma {slot t} : t.kind = .comma → slot.isFilled = false →
      Refuses o shape depth slot t .unexpectedComma
  | unexpected {slot t} : t.kind ≠ .comma → t.kind.startsElement = false →
      Refuses o shape depth slot t (.unexpectedToken t.kind shape)
  | missing {t} : t.kind ≠ .comma → t.kind.startsElement = true →
      Refuses o shape depth .filled t (.missingComma shape)
  | string {slot t} : slot.isFilled = false → t.kind = .string →
      StringLiteral.leaf t = .error (.blame .malformedString t) →
      Refuses o shape depth slot t .malformedString
  | deep {slot t nested} : slot.isFilled = false → t.kind.shape? = some nested →
      o.maxDepth ≤ depth → Refuses o shape depth slot t (.tooDeep nested o.maxDepth)

/-- The causes for which a list does not go on with a token. -/
def Cause.isRefusal : Cause → Bool
  | .unexpectedComma | .unexpectedToken _ _ | .missingComma _ | .malformedString | .tooDeep _ _ => true
  | _ => false

/-- Reading a list of tokens, the first of which stands at `base`, gets to
the token at place `b`, and does not go on with it. -/
def Slot.RefusesAt (o : Options) (shape : Shape) (depth : Int) (slot : Slot) (base : Nat)
    (tokens : List Token) (b : Nat) (t : Token) (cause : Cause) : Prop :=
  ∃ before behind next, tokens = before ++ t :: behind ∧ slot.Passes o depth before next ∧
    o.ignores t.group = false ∧ next.Refuses o shape depth t cause ∧ b = base + before.length

/-- The same in the content of a structure. -/
def Visit.RefusesAt (o : Options) (v : Visit) (b : Nat) (t : Token) (cause : Cause) : Prop :=
  ∃ extent, v.shape.locate o v.depth v.first v.rest = .ok extent ∧
    Slot.first.RefusesAt o v.shape (v.depth + 1) (v.place + 1 + extent.lead) extent.inner b t cause

/-- The place where reading a list stops, in the list itself or in a
structure that it comes upon. -/
def Slot.StopsAt (o : Options) (shape : Shape) (depth : Int) (slot : Slot) (base : Nat)
    (tokens : List Token) (b : Nat) (t : Token) (cause : Cause) : Prop :=
  slot.RefusesAt o shape depth base tokens b t cause ∨
    ∃ v, slot.Reaches o depth base tokens v ∧ v.RefusesAt o b t cause

/-- A structure that can be read in full when the tokens before place `b` go
on in some other way is recorded then with all that is recorded of it now,
and with what follows. -/
def Visit.Foretells (o : Options) (v : Visit) (b : Nat) : Prop :=
  ∃ n, b = v.place + 1 + n ∧ n ≤ v.rest.length ∧ ∀ more events node,
    (build v.shape o v.depth v.first (v.rest.take n ++ more)).outcome = ⟨events, .ok node⟩ →
      (v.reading o).outcome.events <+: events

section Refusals

variable {o : Options} {shape : Shape} {depth : Int} {slot next : Slot} {base b : Nat} {t : Token}
  {cause : Cause} {passed rest tokens : List Token} {v w : Visit}

theorem Slot.Refuses.elements (refuses : slot.Refuses o shape depth t cause)
    (seen : o.ignores t.group = false) (rest : List Token) :
    RuleForest.elements shape o depth slot (t :: rest) = .fail (.blame cause t) := by
  cases refuses with
  | comma comma free =>
    rw [elements_comma seen comma, free]
    rfl
  | unexpected comma starts => exact elements_unexpected seen comma starts
  | missing comma starts => exact elements_missing seen comma starts
  | string free kind literal =>
    rw [elements_item seen (by simp [kind]) (by rw [kind]; rfl) free, read_of_string kind, literal]
    rfl
  | deep free begins deep =>
    obtain ⟨comma, starts⟩ := Kind.starts_of_shape? begins
    rw [elements_item seen comma starts free, read_of_shape begins,
      build_of_error (Shape.locate_of_deep deep ..)]
    rfl

theorem Slot.Refuses.stopsAt (refuses : slot.Refuses o shape depth t cause)
    (seen : o.ignores t.group = false) (base : Nat) (rest : List Token) :
    slot.StopsAt o shape depth base (t :: rest) base t cause :=
  Or.inl ⟨[], rest, slot, rfl, .nil, seen, refuses, rfl⟩

theorem Slot.Passes.stopsAt (passes : slot.Passes o depth passed next)
    (stops : next.StopsAt o shape depth (base + passed.length) rest b t cause) :
    slot.StopsAt o shape depth base (passed ++ rest) b t cause := by
  rcases stops with ⟨before, behind, last, rfl, further, seen, refuses, place⟩ |
    ⟨v, ⟨u, meets, reaches⟩, refuses⟩
  · refine Or.inl ⟨passed ++ before, behind, last, (List.append_assoc ..).symm,
      passes.append further, seen, refuses, ?_⟩
    rw [place, List.length_append, Nat.add_assoc]
  · exact Or.inr ⟨v, ⟨u, passes.meets meets, reaches⟩, refuses⟩

/-- Where the content stops, the structure does. -/
theorem Visit.stopsAt {extent : Extent} (located : v.shape.locate o v.depth v.first v.rest = .ok extent)
    (stops : Slot.first.StopsAt o v.shape (v.depth + 1) (v.place + 1 + extent.lead) extent.inner b t
      cause) : ∃ w, v.Reaches o w ∧ w.RefusesAt o b t cause := by
  rcases stops with here | ⟨w, reaches, refuses⟩
  · exact ⟨v, .refl, extent, located, here⟩
  · exact ⟨w, (Visit.reaches_of_located located).mpr (Or.inl reaches), refuses⟩

/-- A structure that is refused is nested too deep, or its content is. -/
theorem build_refusal_cases {first : Token} (refusal : cause.isRefusal = true)
    (run : (build shape o depth first rest).outcome.result = .error (.blame cause t)) :
    (o.maxDepth ≤ depth ∧ cause = .tooDeep shape o.maxDepth ∧ t = first) ∨
      ∃ extent, shape.locate o depth first rest = .ok extent ∧
        (RuleForest.elements shape o (depth + 1) .first extent.inner).result =
          .error (.blame cause t) := by
  rcases build_error_cases run with ⟨deep, ⟨⟩⟩ | ⟨⟨⟩⟩ | ⟨_, _, _, u, _, _, _, _, _, same⟩ | content |
    ⟨_, ⟨⟩⟩
  · exact Or.inl ⟨deep, rfl, rfl⟩
  · cases refusal
  · obtain ⟨_, name, rfl⟩ := Fault.blame_of_missingParen same.symm
    cases refusal
  · exact Or.inr content

/-- A list that fails because it does not go on with a token stops there. -/
theorem elements_stopsAt (refusal : cause.isRefusal = true)
    (run : (elements shape o depth slot tokens).result = .error (.blame cause t)) (base : Nat) :
    ∃ b, slot.StopsAt o shape depth base tokens b t cause := by
  induction shape, depth, slot, tokens using elements_induction o generalizing base with
  | nil shape depth slot =>
    cases slot with
    | after comma =>
      rw [elements_nil_after] at run
      cases run
      cases refusal
    | first =>
      rw [elements_nil (by simp)] at run
      cases run
    | filled =>
      rw [elements_nil (by simp)] at run
      cases run
  | skip shape depth slot u rest ignored ih =>
    rw [elements_skip ignored] at run
    obtain ⟨b, stops⟩ := ih run (base + 1)
    exact ⟨b, (Slot.Passes.skip ignored .nil).stopsAt stops⟩
  | comma shape depth slot u rest seen comma ih =>
    rw [elements_comma seen comma] at run
    cases filled : slot.isFilled with
    | true =>
      cases slot <;> simp only [Slot.isFilled, reduceCtorEq] at filled
      obtain ⟨b, stops⟩ := ih run (base + 1)
      exact ⟨b, (Slot.Passes.comma seen comma .nil).stopsAt stops⟩
    | false =>
      rw [filled] at run
      cases run
      exact ⟨base, Slot.Refuses.stopsAt (.comma comma filled) seen base rest⟩
  | unexpected shape depth slot u rest seen comma starts =>
    rw [elements_unexpected seen comma starts] at run
    cases run
    exact ⟨base, Slot.Refuses.stopsAt (.unexpected comma starts) seen base rest⟩
  | missing shape depth u rest seen comma starts =>
    rw [elements_missing seen comma starts] at run
    cases run
    exact ⟨base, Slot.Refuses.stopsAt (.missing comma starts) seen base rest⟩
  | item shape depth slot u rest seen comma starts free inside ih =>
    rw [elements_item seen comma starts free] at run
    rcases Traced.result_bind_eq_error.mp run with here | ⟨node, first, behind⟩
    · rcases read_error_cases here with ⟨string, ⟨⟩, literal⟩ | ⟨nested, begins, failed⟩
      · exact ⟨base, Slot.Refuses.stopsAt (.string free string literal) seen base rest⟩
      · rcases build_refusal_cases refusal failed with ⟨deep, rfl, rfl⟩ | ⟨extent, located, content⟩
        · exact ⟨base, Slot.Refuses.stopsAt (.deep free begins deep) seen base rest⟩
        · obtain ⟨b, stops⟩ := inside nested extent begins located content (base + 1 + extent.lead)
          obtain ⟨w, reaches, refuses⟩ :=
            @Visit.stopsAt o b t cause ⟨base, nested, depth, u, rest⟩ extent located stops
          exact ⟨b, Or.inr ⟨w, ⟨_, .here free seen begins, reaches⟩, refuses⟩⟩
    · rcases Traced.result_bind_eq_error.mp behind with later | ⟨_, _, ⟨⟩⟩
      obtain ⟨element, after, rfl, passes, length⟩ := Slot.Passes.of_read free seen starts first
      rw [length, List.drop_left] at ih later
      obtain ⟨b, stops⟩ := ih later (base + (u :: element).length)
      exact ⟨b, passes.stopsAt stops⟩

/-- So does a structure, in its own list or in that of another one that it
comes upon. -/
theorem Visit.Raises.refused (shallow : v.depth < o.maxDepth) (refusal : cause.isRefusal = true)
    (raises : v.Raises o (.blame cause t)) : ∃ w b, v.Reaches o w ∧ w.RefusesAt o b t cause := by
  rcases build_refusal_cases refusal raises with ⟨deep, _⟩ | ⟨extent, located, content⟩
  · omega
  · obtain ⟨b, stops⟩ := elements_stopsAt refusal content (v.place + 1 + extent.lead)
    obtain ⟨w, reaches, refuses⟩ := Visit.stopsAt located stops
    exact ⟨w, b, reaches, refuses⟩

end Refusals

section Prefixes

variable {o : Options} {shape : Shape} {depth : Int} {first t : Token} {rest passed behind more : List Token}
  {extent : Extent} {events : List Event} {node : Node} {v w : Visit} {b : Nat} {cause : Cause}
  {fault : Fault}

/-- A structure that is read in full after another continuation of some
tokens of its content has these at the beginning of its content. -/
theorem build_continued (located : shape.locate o depth first rest = .ok extent)
    (whole : extent.inner = passed ++ behind)
    (run : (build shape o depth first (rest.take (extent.lead + passed.length) ++ more)).outcome =
      ⟨events, .ok node⟩) :
    ∃ tail inner nodes, elements shape o (depth + 1) .first (passed ++ tail) = ⟨inner, .ok nodes⟩ ∧
      inner <+: events := by
  obtain ⟨shallow, lead, content, leads, rfl, length, enclosing⟩ := Shape.locate_eq_ok_iff.mp located
  obtain ⟨closer, after, _, rfl, _⟩ := Shape.enclosed_split enclosing
  rw [whole, List.append_assoc] at enclosing
  rw [whole, length, List.append_assoc, List.take_length_add_append, List.take_left,
    List.append_assoc] at run
  obtain ⟨other, inner, nodes, found, reads, _, rfl, _⟩ := build_eq_mk_ok run
  have again := Shape.locate_of_lead shallow leads first (passed ++ more)
  rw [found] at again
  cases enclosed : shape.enclosed 0 (passed ++ more) with
  | none =>
    rw [enclosed] at again
    cases again
  | some content =>
    rw [enclosed] at again
    cases again
    obtain ⟨tail, rfl⟩ := Shape.enclosed_extends enclosing enclosed
    exact ⟨tail, inner, nodes, reads, List.prefix_append ..⟩

theorem Visit.lead_le {front : List Token} (located : v.shape.locate o v.depth v.first v.rest = .ok extent)
    (whole : extent.inner = front ++ behind) : extent.lead + front.length ≤ v.rest.length := by
  have inside := Visit.stop_of_located located
  rw [whole, List.length_append] at inside
  omega

theorem Visit.RefusesAt.foretells (refuses : v.RefusesAt o b t cause) : v.Foretells o b := by
  obtain ⟨extent, located, before, behind, next, whole, passes, seen, refused, rfl⟩ := refuses
  obtain ⟨own, items, reads⟩ := passes.elements
  refine ⟨extent.lead + before.length, by omega, Visit.lead_le located whole, fun more events node run => ?_⟩
  obtain ⟨tail, inner, nodes, again, records⟩ := build_continued located whole run
  have recorded : (v.reading o).outcome.events = own := by
    rw [reading, build_of_ok located, whole, reads, refused.elements seen]
    simp [Shape.finish, Traced.fail, Except.map, Traced.mk_error_bind]
  rw [reads] at again
  obtain ⟨rfl, _⟩ := Traced.mk.inj again
  rw [recorded]
  exact (List.prefix_append ..).trans records

theorem Visit.RefusesAt.raises (refuses : v.RefusesAt o b t cause) : v.Raises o (.blame cause t) := by
  obtain ⟨extent, located, before, behind, next, whole, passes, seen, refused, _⟩ := refuses
  obtain ⟨own, items, reads⟩ := passes.elements
  rw [Raises, reading, build_of_ok located]
  refine Shape.finish_eq_error_iff.mpr (Or.inl ?_)
  rw [whole, reads, refused.elements seen]
  rfl

/-- A structure foretells what one in it does that fails. -/
theorem Visit.Foretells.outer (meets : v.Meets o w) (raises : w.Raises o fault)
    (foretells : w.Foretells o b) : v.Foretells o b := by
  obtain ⟨extent, located, before, next, whole, passes, free, seen, begins, place, same⟩ := meets
  obtain ⟨n, rfl, within, inner⟩ := foretells
  obtain ⟨comma, starts⟩ := Kind.starts_of_shape? begins
  obtain ⟨own, items, reads⟩ := passes.elements
  have split : extent.inner = (before ++ w.first :: w.rest.take n) ++ w.rest.drop n := by
    rw [whole, List.append_assoc, List.cons_append, List.take_append_drop]
  have length : (before ++ w.first :: w.rest.take n).length = before.length + 1 + n := by
    rw [List.length_append, List.length_cons, List.length_take, Nat.min_eq_left within]
    omega
  refine ⟨extent.lead + (before ++ w.first :: w.rest.take n).length, by omega,
    Visit.lead_le located split, fun more events node run => ?_⟩
  -- The other run reads the same tokens up to `b`, so it comes upon the inner structure too, and
  -- there finds a continuation of the tokens of that one.
  obtain ⟨tail, records, nodes, again, longer⟩ := build_continued located split run
  have failed : (read o (v.depth + 1) w.first w.rest).outcome.result = .error fault := by
    rw [read_of_shape begins, ← same]
    exact raises
  have recorded : (v.reading o).outcome.events = own ++ (w.reading o).outcome.events := by
    rw [reading, build_of_ok located, whole, reads, elements_item seen comma starts free,
      Traced.bind_of_error failed, read_of_shape begins, ← same]
    rfl
  rw [List.append_assoc, List.cons_append, reads, elements_item seen comma starts free] at again
  cases here : (read o (v.depth + 1) w.first (w.rest.take n ++ tail)).outcome with
  | mk first result =>
    rw [here] at again
    cases result with
    | error other =>
      rw [Traced.mk_error_bind] at again
      cases (Traced.mk.inj again).2
    | ok item =>
      rw [Traced.mk_ok_bind] at again
      rw [read_of_shape begins, ← same] at here
      obtain ⟨rfl, _⟩ := Traced.mk.inj again
      rw [recorded]
      refine ((List.prefix_append_right_inj own).mpr ?_).trans longer
      exact (inner tail first item here).trans (List.prefix_append ..)

theorem Visit.Reaches.foretells (reaches : v.Reaches o w) (refuses : w.RefusesAt o b t cause) :
    v.Foretells o b := by
  induction reaches using Relation.ReflTransGen.head_induction_on with
  | refl => exact refuses.foretells
  | head meets reaches ih => exact ih.outer meets (Visit.Reaches.raises reaches refuses.raises)

end Prefixes

end RuleForest
