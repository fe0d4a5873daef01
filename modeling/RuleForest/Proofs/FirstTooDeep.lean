import RuleForest.Proofs.CursorPlace
import RuleForest.Proofs.DepthLimit
import RuleForest.Proofs.StructureLevels

namespace RuleForest

section Openers

variable {o : Options} {depth : Int} {shape : Shape} {level : Nat} {first closer comma : Token}
  {gap lead inner tokens rest : List Token} {node : Node} {nodes : List Node}

theorem Element.openers_nested (begins : first.kind.shape? = some shape)
    (seen : o.ignores first.group = false) (leads : Lead o shape lead)
    (content : Items o depth inner nodes) (closes : closer.kind = shape.closer) :
    o.openers level (first :: (lead ++ inner ++ [closer])) =
      (level, first) :: o.openers (level + 1) inner := by
  obtain ⟨opened, opens, _⟩ := content.opens (level + 1)
  rw [(leads.opens begins seen closes opens).eq, opens.eq]

theorem Items.openers_some (skips : o.Skips gap) (element : Element o depth tokens node) :
    o.openers level (gap ++ tokens ++ rest) = o.openers level tokens ++ o.openers level rest := by
  obtain ⟨opened, opens, _⟩ := element.opens level
  rw [List.append_assoc, Options.openers_gap skips, opens, opens.eq]

theorem More.openers_next (skips : o.Skips gap) (separates : comma.kind = .comma) :
    o.openers level (gap ++ comma :: rest) = o.openers level rest := by
  have single : o.Opens level [comma] [] := Options.opens_singleton (by simp [separates]) level
  rw [Options.openers_gap skips]
  exact single rest

end Openers

section Within

variable {o : Options} {limit base : Int}

mutual

/-- A derived element whose structures the limit allows is derived under it. -/
theorem Element.within {depth : Int} {level : Nat} {tokens : List Token} {node : Node}
    (place : depth = base + level) : Element o depth tokens node →
      (∀ p ∈ o.openers level tokens, base + p.1 < limit) →
      Element (o.limited limit) depth tokens node
  | .plain group seen, _ => .plain group seen
  | .string string seen literal, _ => .string string seen literal
  | .nested begins _ named seen leads content closes, allowed => by
    rw [Element.openers_nested begins seen leads content closes] at allowed
    obtain ⟨here, deeper⟩ := List.forall_mem_cons.mp allowed
    have next : depth + 1 = base + ((level + 1 : Nat) : Int) := by omega
    have inner := content.within next deeper
    exact .nested begins (by rw [place]; exact here) named seen (leads.limited limit) inner closes

theorem Items.within {depth : Int} {level : Nat} {tokens : List Token} {nodes : List Node}
    (place : depth = base + level) : Items o depth tokens nodes →
      (∀ p ∈ o.openers level tokens, base + p.1 < limit) →
      Items (o.limited limit) depth tokens nodes
  | .none skips, _ => .none skips
  | .some skips element more, allowed => by
    rw [Items.openers_some skips element] at allowed
    obtain ⟨here, later⟩ := List.forall_mem_append.mp allowed
    exact .some skips (element.within place here) (more.within place later)

theorem More.within {depth : Int} {level : Nat} {tokens : List Token} {nodes : List Node}
    (place : depth = base + level) : More o depth tokens nodes →
      (∀ p ∈ o.openers level tokens, base + p.1 < limit) →
      More (o.limited limit) depth tokens nodes
  | .last skips, _ => .last skips
  | .next skips comma seen items, allowed => by
    rw [More.openers_next skips comma] at allowed
    exact .next skips comma seen (items.within place allowed)

end
/-- The first of the openers that the limit does not allow. -/
def firstBeyond (limit base : Int) (opened : List (Nat × Token)) : Option (Nat × Token) :=
  opened.find? fun p => limit ≤ base + p.1

theorem allowed_of_none {opened : List (Nat × Token)} (none : firstBeyond limit base opened = none) :
    ∀ p ∈ opened, base + p.1 < limit := by
  intro p member
  have allowed := List.find?_eq_none.mp none p member
  simpa using allowed

theorem build_within {depth : Int} {shape : Shape} {first : Token} {rest : List Token}
    {extent : Extent} {nodes : List Node} (located : shape.locate o depth first rest = .ok extent)
    (content : Items (o.limited limit) (depth + 1) extent.inner nodes)
    (named : shape.isNamed first = true) (allowed : depth < limit) :
    (build shape (o.limited limit) depth first rest).outcome.result =
      .ok (shape.node first nodes) := by
  have shallow := (Shape.locate_eq_ok_iff.mp located).1
  have again := @Shape.locate_limited o limit depth 0 shape first rest shallow (by omega)
  rw [located, Int.add_zero] at again
  exact build_eq_ok_iff.mpr ⟨extent, nodes, again, elements_eq_ok_iff.mpr content, named, rfl⟩

/-- A structure fails on its first token if the limit does not allow it, and
otherwise as its content does. -/
theorem build_beyond {depth : Int} {level : Nat} {shape : Shape} {first : Token} {rest : List Token}
    {extent : Extent} {p : Nat × Token} (place : depth = base + level)
    (located : shape.locate o depth first rest = .ok extent)
    (content : firstBeyond limit base (o.openers (level + 1) extent.inner) = some p →
      ∃ s, (elements shape (o.limited limit) (depth + 1) .first extent.inner).result =
        .error (.blame (.tooDeep s limit) p.2))
    (found : firstBeyond limit base ((level, first) :: o.openers (level + 1) extent.inner) = some p) :
    ∃ s, (build shape (o.limited limit) depth first rest).outcome.result =
      .error (.blame (.tooDeep s limit) p.2) := by
  rw [firstBeyond, List.find?_cons] at found
  by_cases deep : limit ≤ depth
  · have here : limit ≤ base + (level : Int) := place ▸ deep
    have top : (o.limited limit).maxDepth ≤ depth := deep
    simp only [here, decide_true] at found
    cases found
    rw [build_of_error (Shape.locate_of_deep top shape first rest)]
    exact ⟨shape, rfl⟩
  · have here : ¬ limit ≤ base + (level : Int) := place ▸ deep
    simp only [here, decide_false] at found
    obtain ⟨s, failed⟩ := content found
    have shallow := (Shape.locate_eq_ok_iff.mp located).1
    have again := @Shape.locate_limited o limit depth 0 shape first rest shallow (by omega)
    rw [located, Int.add_zero] at again
    rw [build_of_ok again]
    exact ⟨s, Shape.finish_eq_error_iff.mpr (Or.inl failed)⟩

mutual

/-- A derived element with a structure that the limit does not allow fails
on the first one of these, whatever stands behind the element. -/
theorem Element.beyond {depth : Int} {level : Nat} {tokens : List Token} {node : Node}
    {p : Nat × Token} (place : depth = base + level) : Element o depth tokens node →
      firstBeyond limit base (o.openers level tokens) = some p →
      ∃ first rest, tokens = first :: rest ∧ (o.limited limit).ignores first.group = false ∧
        first.kind ≠ .comma ∧ first.kind.startsElement = true ∧ ∀ after, ∃ s,
          (read (o.limited limit) depth first (rest ++ after)).outcome.result =
            .error (.blame (.tooDeep s limit) p.2)
  | .plain group _, found => by
    rw [(Options.opens_singleton (Token.other_of_group group) level).eq] at found
    cases found
  | .string string _ _, found => by
    rw [(Options.opens_singleton (by simp [string]) level).eq] at found
    cases found
  | @Element.nested _ _ shape first lead inner closer nodes begins shallow _ seen leads content
      closes, found => by
    rw [Element.openers_nested begins seen leads content closes] at found
    obtain ⟨comma, starts⟩ := Kind.starts_of_shape? begins
    refine ⟨first, lead ++ inner ++ [closer], rfl, seen, comma, starts, fun after => ?_⟩
    have located := content.located (leads.visible begins seen) shallow leads closes first after
    have next : depth + 1 = base + ((level + 1 : Nat) : Int) := by omega
    rw [read_of_shape begins]
    exact build_beyond place located (fun inside => content.beyond next inside shape .first rfl) found

theorem Items.beyond {depth : Int} {level : Nat} {tokens : List Token} {nodes : List Node}
    {p : Nat × Token} (place : depth = base + level) : Items o depth tokens nodes →
      firstBeyond limit base (o.openers level tokens) = some p →
      ∀ shape slot, slot.isFilled = false → ∃ s,
        (elements shape (o.limited limit) depth slot tokens).result =
          .error (.blame (.tooDeep s limit) p.2)
  | .none skips, found => by
    rw [(skips.opens level).eq] at found
    cases found
  | @Items.some _ _ gap part behind _ _ skips element more, found => by
    intro shape slot free
    have passed : (o.limited limit).Skips gap := skips
    rw [Items.openers_some skips element, firstBeyond, List.find?_append] at found
    rw [List.append_assoc, elements_gap passed]
    cases here : firstBeyond limit base (o.openers level part) with
    | some q =>
      rw [firstBeyond] at here
      rw [here, Option.some_or] at found
      cases found
      obtain ⟨first, rest, rfl, visible, comma, starts, failed⟩ := element.beyond place here
      obtain ⟨s, failed⟩ := failed behind
      rw [List.cons_append, elements_item visible comma starts free]
      exact ⟨s, Traced.result_bind_eq_error.mpr (Or.inl failed)⟩
    | none =>
      rw [firstBeyond] at here
      rw [here, Option.none_or] at found
      obtain ⟨first, rest, rfl, reads⟩ := (element.within place (allowed_of_none here)).read
      obtain ⟨s, failed⟩ := more.beyond place found shape
      rw [List.cons_append, elements_item reads.seen reads.comma reads.starts free, reads.advances,
        List.drop_left]
      refine ⟨s, Traced.result_bind_eq_error.mpr (Or.inr ⟨_, reads.result behind, ?_⟩)⟩
      exact Traced.result_bind_eq_error.mpr (Or.inl failed)

theorem More.beyond {depth : Int} {level : Nat} {tokens : List Token} {nodes : List Node}
    {p : Nat × Token} (place : depth = base + level) : More o depth tokens nodes →
      firstBeyond limit base (o.openers level tokens) = some p →
      ∀ shape, ∃ s,
        (elements shape (o.limited limit) depth .filled tokens).result =
          .error (.blame (.tooDeep s limit) p.2)
  | .last skips, found => by
    rw [(skips.opens level).eq] at found
    cases found
  | @More.next _ _ gap comma _ _ _ skips separates seen items, found => by
    intro shape
    rw [More.openers_next skips separates] at found
    have passed : (o.limited limit).Skips gap := skips
    have visible : (o.limited limit).ignores comma.group = false := seen
    rw [elements_gap passed, elements_comma visible separates, if_pos (by rfl)]
    exact items.beyond place found shape (.after comma) rfl

end

end Within

section Height

variable {shape : Shape} {first : Token} {nodes : List Node} {opened : List (Nat × Token)}

theorem Node.levels_iff {structures : List (Nat × Node)}
    (same : List.Forall₂ OpenedBy structures opened) (allowed : Nat → Prop) :
    (∀ p ∈ structures, allowed p.1) ↔ ∀ p ∈ opened, allowed p.1 := by
  induction same with
  | nil => simp
  | cons here _ ih => rw [List.forall_mem_cons, List.forall_mem_cons, here.1, ih]

/-- The limit allows all structures of a tree exactly if it lies at least the
height of the tree above the depth. -/
theorem Node.height_within_iff {limit depth : Int}
    (same : List.Forall₂ OpenedBy ((shape.node first nodes).structures 0) opened) :
    depth + (shape.node first nodes).height ≤ limit ↔ ∀ p ∈ opened, depth + p.1 < limit := by
  have positive := height_node shape first nodes
  have top : (0, shape.node first nodes) ∈ (shape.node first nodes).structures 0 := by
    rw [structures_node]
    exact List.mem_cons_self
  rw [← levels_iff same fun level => depth + level < limit]
  constructor
  · intro bound p member
    have inside := (height_le_iff 0 _ (shape.node first nodes)).mp (Nat.le_refl _) p member
    omega
  · intro allowed
    have atTop := allowed _ top
    have bound : (shape.node first nodes).height ≤ (limit - depth).toNat := by
      refine (height_le_iff 0 _ (shape.node first nodes)).mpr fun p member => ?_
      have inside := allowed p member
      omega
    omega

end Height

/-- The limit on the nesting decides about nothing else. A structure that is
read without running into it is read alike under every higher limit. One that
is read at all is read under exactly the limits that its height reaches up to
from the depth, and under a lower one the first of its structures that lies
too deep is blamed, from left to right. Only the distance of the limit from
the depth matters. -/
theorem Stream.buildNode_limit (tokens : List Token) (c : Nat) (shape : Shape) (o : Options)
    (depth : Int) (first : Token) :
    (∀ limit, o.maxDepth ≤ limit → ¬ ((placed tokens c).buildNode shape o depth first).2.TooDeep →
      (placed tokens c).buildNode shape (o.limited limit) depth first =
        (placed tokens c).buildNode shape o depth first) ∧
    (∀ node, ((placed tokens c).buildNode shape o depth first).2.result = .ok node →
      ∃ lead inner closer after, tokens.drop (c + 1) = lead ++ (inner ++ closer :: after) ∧
        Lead o shape lead ∧ closer.kind = shape.closer ∧
        shape.ClosesAt 1 (inner ++ closer :: after) inner.length ∧
        List.Forall₂ Node.OpenedBy (node.structures 0) ((0, first) :: o.openers 1 inner) ∧
        ∀ limit,
          (depth + node.height ≤ limit →
            (placed tokens c).buildNode shape (o.limited limit) depth first =
              (placed tokens c).buildNode shape o depth first) ∧
          (limit < depth + node.height →
            ∃ p s, firstBeyond limit depth ((0, first) :: o.openers 1 inner) = some p ∧
              ((placed tokens c).buildNode shape (o.limited limit) depth first).2.result =
                .error (.blame (.tooDeep s limit) p.2))) ∧
    ∀ k, (placed tokens c).buildNode shape (o.limited (o.maxDepth + k)) (depth + k) first =
      (((placed tokens c).buildNode shape o depth first).1,
        ((placed tokens c).buildNode shape o depth first).2.mapFault (Fault.shiftLimit k)) := by
  simp only [buildNode_placed]
  refine ⟨?_, ?_, ?_⟩
  · intro limit above allowed
    rw [build_raised above allowed]
  · intro node run
    obtain ⟨extent, nodes, located, content, named, rfl⟩ := build_eq_ok_iff.mp run
    obtain ⟨shallow, lead, behind, leads, whole, _, enclosing⟩ := Shape.locate_eq_ok_iff.mp located
    obtain ⟨closer, after, closes, rfl, _⟩ := Shape.enclosed_split enclosing
    have items : Items o (depth + 1) extent.inner nodes := elements_derives content
    obtain ⟨opened, opens, same⟩ := items.opens 1
    have opening : List.Forall₂ Node.OpenedBy ((shape.node first nodes).structures 0)
        ((0, first) :: o.openers 1 extent.inner) := by
      rw [Node.structures_node, opens.eq]
      exact .cons ⟨rfl, shape, nodes, rfl⟩ same
    refine ⟨lead, extent.inner, closer, after, whole, leads, closes,
      Shape.enclosed_append_iff.mp enclosing, opening, fun limit => ⟨?_, ?_⟩⟩
    · intro high
      obtain ⟨here, deeper⟩ := List.forall_mem_cons.mp ((Node.height_within_iff opening).mp high)
      have next : depth + 1 = depth + ((1 : Nat) : Int) := rfl
      have succeeds := build_within located (items.within next deeper) named (by simpa using here)
      rcases Int.le_total o.maxDepth limit with above | below
      · rw [build_raised above (Traced.not_tooDeep run)]
      · have raised := build_raised (o := o.limited limit) below (Traced.not_tooDeep succeeds)
        have same : (o.limited limit).limited o.maxDepth = o := rfl
        rw [← raised, same]
    · intro low
      cases found : firstBeyond limit depth ((0, first) :: o.openers 1 extent.inner) with
      | none =>
        have high := (Node.height_within_iff opening).mpr (allowed_of_none found)
        omega
      | some p =>
        have next : depth + 1 = depth + ((1 : Nat) : Int) := rfl
        have place : depth = depth + ((0 : Nat) : Int) := (Int.add_zero depth).symm
        obtain ⟨s, failed⟩ := build_beyond place located
          (fun inside => items.beyond next inside shape .first rfl) found
        exact ⟨p, s, rfl, failed⟩
  · intro k
    rw [build_shift]

/-- Two arrays inside each other are read alike under the limits two and
three, and not under one. -/
theorem Stream.buildNode_limit_of_two :
    (placed [.bare .openSquare, .bare .openSquare, .bare .closeSquare, .bare .closeSquare] 0).buildNode
        .array (Options.standard.limited 2) 0 (.bare .openSquare) =
      (placed [.bare .openSquare, .bare .openSquare, .bare .closeSquare, .bare .closeSquare] 0).buildNode
        .array .standard 0 (.bare .openSquare) ∧
    ∃ t s, ((placed [.bare .openSquare, .bare .openSquare, .bare .closeSquare, .bare .closeSquare]
      0).buildNode .array (Options.standard.limited 1) 0 (.bare .openSquare)).2.result =
        .error (.blame (.tooDeep s 1) t) := by
  have empty : Element .standard 1 [.bare .openSquare, .bare .closeSquare] (.array []) :=
    @Element.nested _ 1 .array (.bare .openSquare) [] [] (.bare .closeSquare) [] rfl (by decide) rfl
      rfl .array (.none (Options.skips_nil _)) rfl
  have items := Items.some (Options.skips_nil _) empty (.last (Options.skips_nil _))
  have located : Shape.array.locate .standard 0 (.bare .openSquare)
      [.bare .openSquare, .bare .closeSquare, .bare .closeSquare] =
        .ok ⟨0, [.bare .openSquare, .bare .closeSquare]⟩ := rfl
  have run : ((placed [.bare .openSquare, .bare .openSquare, .bare .closeSquare, .bare .closeSquare]
      0).buildNode .array .standard 0 (.bare .openSquare)).2.result = .ok (.array [.array []]) := by
    rw [buildNode_placed]
    exact build_eq_ok_iff.mpr ⟨_, _, located, items.elements .array .first rfl fun _ => rfl, rfl, rfl⟩
  obtain ⟨_, _, _, _, _, _, _, _, _, limits⟩ :=
    (buildNode_limit _ 0 .array .standard 0 (.bare .openSquare)).2.1 _ run
  obtain ⟨p, s, _, failed⟩ := (limits 1).2 (by decide)
  exact ⟨(limits 2).1 (by decide), p.2, s, failed⟩

end RuleForest
