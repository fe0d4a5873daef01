import RuleForest.Folding
import RuleForest.Proofs.TraversalPartition

namespace RuleForest

mutual

/-- A tree as reading makes it: an array of its items, or a call whose two
children are its name and the tree of its arguments. -/
inductive Node.Structured (o : Options) : Node → Prop
  | array {items} : (∀ item ∈ items, Fits o item) → Structured o (.tree "array" items)
  | call {name args} : name.label = "NAME" → (∀ arg ∈ args, Fits o arg) →
      Structured o (.tree "call" [.leaf name, .tree "args" args])

/-- What may stand in a structure: another one, a literal, or a token that
stands for a value or a variable and is not passed over. -/
inductive Node.Fits (o : Options) : Node → Prop
  | structured {node} : Structured o node → Fits o node
  | string {l} : l.label = "STRING" → Fits o (.leaf l)
  | token {t} : t.group = .value ∨ t.group = .variable → o.ignores t.group = false →
      Fits o (.token t)

end

/-- A node that occurs in another one, at any depth. -/
inductive Node.Occurs (sub : Node) : Node → Prop
  | here : Occurs sub sub
  | within {label children child} : child ∈ children → Occurs sub child →
      Occurs sub (.tree label children)

/-- What may occur in a structure. Besides what fits into one, these are the
two children of a call. -/
inductive Node.Part (o : Options) : Node → Prop
  | fits {node} : node.Fits o → Part o node
  | name {l} : Part o (.leaf l)
  | args {args} : (∀ arg ∈ args, arg.Fits o) → Part o (.tree "args" args)

section Form

variable {o : Options} {node sub inner : Node} {shape : Shape} {first : Token}
  {label : String} {children items : List Node}

theorem Node.Occurs.trans (nested : sub.Occurs inner) (outer : inner.Occurs node) :
    sub.Occurs node := by
  induction outer with
  | here => exact nested
  | within member _ ih => exact .within member ih

theorem StringLiteral.label_leaf {t : Token} {leaf : Leaf} (literal : StringLiteral.leaf t = .ok leaf) :
    leaf.label = Leaf.stringLabel := by
  unfold StringLiteral.leaf at literal
  split at literal
  · split at literal
    · cases literal
      rfl
    · cases literal
  · cases literal

theorem Shape.structured (fits : ∀ item ∈ items, item.Fits o) :
    (shape.node first items).Structured o := by
  cases shape with
  | array => exact .array fits
  | call => exact .call rfl fits

theorem Shape.hasShape_node : (shape.node first items).hasShape shape = true := by
  cases shape <;> rfl

/-- A child of a part is a part, so that parts are what occurs in a part. -/
theorem Node.Part.child (part : (Node.tree label children).Part o) (member : inner ∈ children) :
    inner.Part o := by
  cases part with
  | args fits => exact .fits (fits inner member)
  | fits fits =>
    cases fits with
    | structured structured =>
      cases structured with
      | array fits => exact .fits (fits inner member)
      | call named fits =>
        rcases List.mem_cons.mp member with rfl | later
        · exact .name
        · rw [List.mem_singleton.mp later]
          exact .args fits

theorem Node.Part.occurs (part : node.Part o) (occurs : sub.Occurs node) : sub.Part o := by
  induction occurs with
  | here => exact part
  | within member _ ih => exact ih (part.child member)

theorem Node.Part.structured (part : node.Part o) (has : node.hasShape shape = true) :
    node.Structured o := by
  cases part with
  | fits fits =>
    cases fits with
    | structured structured => exact structured
    | string _ => cases shape <;> cases has
    | token _ _ => cases shape <;> cases has
  | name => cases shape <;> cases has
  | args _ => cases shape <;> cases has

/-- The items of an array, and the name and the arguments of a call, are
there in every tree that occurs in a structure and is labelled so. -/
theorem Node.Structured.parts_of_occurs (structured : node.Structured o) (occurs : sub.Occurs node) :
    (sub.hasShape .array = true → ∃ items, sub.arrayItems = .ok items) ∧
      (sub.hasShape .call = true →
        (∃ name, sub.callName = .ok name) ∧ ∃ args, sub.callArgs = .ok args) := by
  have part : sub.Part o := Part.occurs (.fits (.structured structured)) occurs
  constructor
  · intro array
    cases part.structured array with
    | array => exact ⟨_, rfl⟩
    | call => cases array
  · intro call
    cases part.structured call with
    | array => cases call
    | call => exact ⟨⟨_, rfl⟩, _, rfl⟩

end Form

mutual

/-- What is read as an element of a list fits into a structure. -/
theorem Element.fits {o : Options} {depth : Int} {tokens : List Token} {node : Node} :
    Element o depth tokens node → node.Fits o
  | .plain group seen => .token group seen
  | .string _ _ literal => .string (StringLiteral.label_leaf literal)
  | .nested _ _ _ _ _ content _ => .structured (Shape.structured content.fits)

theorem Items.fits {o : Options} {depth : Int} {tokens : List Token} {nodes : List Node} :
    Items o depth tokens nodes → ∀ node ∈ nodes, node.Fits o
  | .none _ => nofun
  | .some _ element more => List.forall_mem_cons.mpr ⟨element.fits, more.fits⟩

theorem More.fits {o : Options} {depth : Int} {tokens : List Token} {nodes : List Node} :
    More o depth tokens nodes → ∀ node ∈ nodes, node.Fits o
  | .last _ => nofun
  | .next _ _ _ rest => rest.fits

end

section Reading

variable {o : Options} {depth : Int} {shape : Shape} {first t : Token} {rest tokens : List Token}
  {node : Node}

theorem build_structured (run : (build shape o depth first rest).outcome.result = .ok node) :
    node.hasShape shape = true ∧ node.Structured o := by
  obtain ⟨extent, items, _, content, _, rfl⟩ := build_eq_ok_iff.mp run
  have derived : Items o (depth + 1) extent.inner items := elements_derives content
  exact ⟨Shape.hasShape_node, Shape.structured derived.fits⟩

theorem read_structured (run : (read o depth t rest).outcome.result = .ok node)
    (tree : node.isTree = true) : node.Structured o := by
  rcases t.cases_kind with string | ⟨shape, begins⟩ | plain
  · rw [read_of_string string] at run
    cases literal : StringLiteral.leaf t with
    | ok leaf =>
      rw [literal] at run
      cases run
      cases tree
    | error fault =>
      rw [literal] at run
      cases run
  · rw [read_of_shape begins] at run
    exact (build_structured run).2
  · rw [read_of_plain plain] at run
    cases run
    cases tree

theorem forest_structured {nodes : List Node}
    (run : (forest o depth tokens).outcome.result = .ok nodes) (member : node ∈ nodes)
    (tree : node.isTree = true) : node.Structured o := by
  obtain ⟨_, k, _, _, places⟩ := forest_places run
  obtain ⟨i, found⟩ := List.mem_iff_getElem?.mp member
  obtain ⟨t, _, result, _⟩ := places i node found
  exact read_structured result tree

end Reading

end RuleForest
