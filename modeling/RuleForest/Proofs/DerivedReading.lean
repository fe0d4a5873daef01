import RuleForest.Proofs.Derivation

namespace RuleForest

section Soundness

variable {o : Options} {depth : Int} {t : Token} {rest : List Token} {node : Node}

/-- A token that may begin an element and is read without fault makes one
element with the tokens that the cursor moves over. -/
theorem Element.of_contents (seen : o.ignores t.group = false)
    (starts : t.kind.startsElement = true)
    (contents : ∀ nested extent nodes, t.kind.shape? = some nested →
      nested.locate o depth t rest = .ok extent →
      (elements nested o (depth + 1) .first extent.inner).result = .ok nodes →
      Items o (depth + 1) extent.inner nodes)
    (run : (read o depth t rest).outcome.result = .ok node) :
    Element o depth (t :: rest.take (read o depth t rest).advances) node := by
  rcases t.cases_kind with string | ⟨nested, begins⟩ | plain
  · rw [read_of_string string] at run ⊢
    obtain ⟨leaf, literal, same⟩ : ∃ leaf, StringLiteral.leaf t = .ok leaf ∧ Node.leaf leaf = node := by
      cases literal : StringLiteral.leaf t <;> simp_all [Traced.ofExcept, Except.map]
    rw [← same]
    exact .string string seen literal
  · rw [read_of_shape begins] at run ⊢
    obtain ⟨extent, nodes, found, content, named, rfl⟩ := build_eq_ok_iff.mp run
    obtain ⟨lead, closer, after, leads, closes, rfl, advances, _⟩ := Shape.locate_split found
    have shallow := (Shape.locate_eq_ok_iff.mp found).1
    have items := contents nested extent nodes begins found content
    have taken : (lead ++ extent.inner ++ closer :: after).take extent.advances =
        lead ++ extent.inner ++ [closer] := by
      rw [advances, List.take_append, List.take_of_length_le (Nat.le_succ _), Nat.add_sub_cancel_left]
      rfl
    rw [build_of_ok found, taken]
    exact .nested begins shallow named seen leads items closes
  · rw [read_of_plain plain] at run ⊢
    cases run
    refine .plain ?_ seen
    unfold Token.isComposite at plain
    unfold Token.group
    cases kind : t.kind <;> simp_all [Kind.isComposite, Kind.startsElement, Kind.group, Group.isElement]

/-- What is read as the elements of a list is derived as a list. -/
theorem elements_derives {shape : Shape} {slot : Slot} {tokens : List Token} {nodes : List Node}
    (run : (elements shape o depth slot tokens).result = .ok nodes) :
    slot.Derives o depth tokens nodes := by
  induction shape, depth, slot, tokens using elements_induction o generalizing nodes with
  | nil shape depth slot =>
    cases slot with
    | after comma =>
      rw [elements_nil_after] at run
      cases run
    | first =>
      rw [elements_nil (by simp)] at run
      cases run
      exact Items.none o.skips_nil
    | filled =>
      rw [elements_nil (by simp)] at run
      cases run
      exact More.last o.skips_nil
  | skip shape depth slot t rest ignored ih =>
    rw [elements_skip ignored] at run
    exact (ih run).skip ignored
  | comma shape depth slot t rest seen comma ih =>
    rw [elements_comma seen comma] at run
    cases filled : slot.isFilled with
    | false =>
      rw [filled] at run
      cases run
    | true =>
      rw [filled] at run
      cases slot <;> simp only [Slot.isFilled, reduceCtorEq] at filled
      exact .comma comma seen (ih run)
  | unexpected shape depth slot t rest seen comma starts =>
    rw [elements_unexpected seen comma starts] at run
    cases run
  | missing shape depth t rest seen comma starts =>
    rw [elements_missing seen comma starts] at run
    cases run
  | item shape depth slot t rest seen comma starts free inside ih =>
    rw [elements_item seen comma starts free] at run
    obtain ⟨node, first, others⟩ := Traced.result_bind_eq_ok.mp run
    obtain ⟨more, behind, same⟩ := Traced.result_bind_eq_ok.mp others
    cases same
    have element := Element.of_contents seen starts (fun nested extent nodes begins found content =>
      inside nested extent begins found content) first
    have joined := Slot.Derives.item free element (ih behind)
    rwa [List.cons_append, List.take_append_drop] at joined

end Soundness

section Completeness

variable {o : Options}

/-- The first token of a derived element, when it is read with anything
behind it, makes the node and moves the cursor over the element. -/
structure Element.Read (o : Options) (depth : Int) (t : Token) (rest : List Token) (node : Node) :
    Prop where
  seen : o.ignores t.group = false
  comma : t.kind ≠ .comma
  starts : t.kind.startsElement = true
  advances : ∀ after, (read o depth t (rest ++ after)).advances = rest.length
  result : ∀ after, (read o depth t (rest ++ after)).outcome.result = .ok node

theorem Element.Read.elements {depth : Int} {t : Token} {first rest : List Token} {node : Node}
    {nodes : List Node} (reads : Element.Read o depth t first node) {shape : Shape} {slot : Slot}
    (free : slot.isFilled = false)
    (more : (elements shape o depth .filled rest).result = .ok nodes) :
    (RuleForest.elements shape o depth slot (t :: (first ++ rest))).result = .ok (node :: nodes) := by
  rw [elements_item reads.seen reads.comma reads.starts free, reads.advances, List.drop_left]
  refine Traced.result_bind_eq_ok.mpr ⟨node, reads.result rest, ?_⟩
  exact Traced.result_bind_eq_ok.mpr ⟨nodes, more, rfl⟩

mutual

theorem Element.read {depth : Int} {tokens : List Token} {node : Node} :
    Element o depth tokens node →
      ∃ t rest, tokens = t :: rest ∧ Element.Read o depth t rest node
  | @Element.plain _ _ t group seen => by
    have plain : t.isComposite = false := by
      unfold Token.group at group
      unfold Token.isComposite
      cases kind : t.kind <;> simp_all [Kind.isComposite, Kind.group]
    refine ⟨t, [], rfl, seen, ?_, ?_, ?_, ?_⟩
    · intro comma
      rw [Token.group, comma] at group
      simp [Kind.group] at group
    · unfold Token.group at group
      rcases group with value | variable_
      · rw [Kind.startsElement, value]
        rfl
      · rw [Kind.startsElement, variable_]
        rfl
    · intro after
      rw [read_of_plain plain]
      rfl
    · intro after
      rw [read_of_plain plain]
      rfl
  | @Element.string _ _ t leaf string seen literal => by
    refine ⟨t, [], rfl, seen, by simp [string], by simp [string, Kind.startsElement, Kind.group, Group.isElement], ?_, ?_⟩
    · intro after
      rw [read_of_string string]
      rfl
    · intro after
      rw [read_of_string string, literal]
      rfl
  | @Element.nested _ depth shape first lead inner closer nodes begins shallow named seen leads items
      closes => by
    have kind := Kind.shape?_eq_some_iff.mp begins
    have visible : o.ignores shape.group = false := by
      cases leads with
      | array => rwa [Token.group, kind] at seen
      | call _ _ visible => exact visible
    have found (after : List Token) :
        shape.locate o depth first (lead ++ inner ++ [closer] ++ after) = .ok ⟨lead.length, inner⟩ :=
      items.located visible shallow leads closes first after
    obtain ⟨comma, starts⟩ := Kind.starts_of_shape? begins
    refine ⟨first, lead ++ inner ++ [closer], rfl, seen, comma, starts, ?_, ?_⟩
    · intro after
      rw [read_of_shape begins, build_of_ok (found after), Extent.advances,
        List.length_append, List.length_append, List.length_singleton]
    · intro after
      rw [read_of_shape begins]
      exact build_eq_ok_iff.mpr
        ⟨_, nodes, found after, items.elements shape .first rfl fun _ => rfl, named, rfl⟩

theorem Items.elements {depth : Int} {tokens : List Token} {nodes : List Node} :
    Items o depth tokens nodes → ∀ shape slot, slot.isFilled = false →
      (nodes = [] → slot = .first) →
      (elements shape o depth slot tokens).result = .ok nodes
  | .none skips, shape, slot, _, begins => by
    rw [begins rfl, ← List.append_nil tokens, elements_gap skips, elements_nil (by simp)]
    rfl
  | .some skips element more, shape, slot, free, _ => by
    obtain ⟨t, first, rfl, reads⟩ := element.read
    rw [List.append_assoc, elements_gap skips]
    exact reads.elements free (more.elements shape)

theorem More.elements {depth : Int} {tokens : List Token} {nodes : List Node} :
    More o depth tokens nodes → ∀ shape,
      (elements shape o depth .filled tokens).result = .ok nodes
  | .last skips, shape => by
    rw [← List.append_nil tokens, elements_gap skips, elements_nil (by simp)]
    rfl
  | .next skips comma seen items, shape => by
    rw [elements_gap skips, elements_comma seen comma, Slot.isFilled, if_pos rfl]
    exact items.elements shape (.after _) rfl nofun

end

end Completeness

/-- Reading the elements of a list succeeds exactly on the derived lists. -/
theorem elements_eq_ok_iff {shape : Shape} {o : Options} {depth : Int} {slot : Slot}
    {tokens : List Token} {nodes : List Node} :
    (elements shape o depth slot tokens).result = .ok nodes ↔ slot.Derives o depth tokens nodes := by
  refine ⟨elements_derives, fun derives => ?_⟩
  cases slot with
  | first => exact Items.elements derives shape .first rfl fun _ => rfl
  | filled => exact More.elements derives shape
  | after comma =>
    exact derives.2.elements shape (.after comma) rfl fun empty => absurd empty derives.1

end RuleForest
