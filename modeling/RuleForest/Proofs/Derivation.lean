import RuleForest.Proofs.ReadingSteps

namespace RuleForest

mutual

/-- A run of tokens that is one element of a list at some depth, and the node
it stands for. A structure is an element where the limit allows it, where it
can be named, and where neither its first token nor its brackets are passed
over. -/
inductive Element (o : Options) : Int → List Token → Node → Prop
  | plain {depth t} : t.group = .value ∨ t.group = .variable → o.ignores t.group = false →
      Element o depth [t] (.token t)
  | string {depth t leaf} : t.kind = .string → o.ignores t.group = false →
      StringLiteral.leaf t = .ok leaf → Element o depth [t] (.leaf leaf)
  | nested {depth shape first lead inner closer nodes} : first.kind.shape? = some shape →
      depth < o.maxDepth → shape.isNamed first = true → o.ignores first.group = false →
      Lead o shape lead → Items o (depth + 1) inner nodes → closer.kind = shape.closer →
      Element o depth (first :: (lead ++ inner ++ [closer])) (shape.node first nodes)

/-- A run of tokens that is a list: elements with single commas between them.
Passed tokens may stand before, between and behind these. -/
inductive Items (o : Options) : Int → List Token → List Node → Prop
  | none {depth gap} : o.Skips gap → Items o depth gap []
  | some {depth gap first rest node nodes} : o.Skips gap → Element o depth first node →
      More o depth rest nodes → Items o depth (gap ++ first ++ rest) (node :: nodes)

/-- What may follow an element of a list: nothing, or a comma and a list
that is not empty. -/
inductive More (o : Options) : Int → List Token → List Node → Prop
  | last {depth gap} : o.Skips gap → More o depth gap []
  | next {depth gap comma rest node nodes} : o.Skips gap → comma.kind = .comma →
      o.ignores comma.group = false → Items o depth rest (node :: nodes) →
      More o depth (gap ++ comma :: rest) (node :: nodes)

end

theorem Items.skip {o : Options} {depth : Int} {t : Token} {rest : List Token} {nodes : List Node}
    (ignored : o.ignores t.group = true) (items : Items o depth rest nodes) :
    Items o depth (t :: rest) nodes := by
  cases items with
  | none skips => exact .none (skips.cons ignored)
  | @some _ gap first rest _ _ skips element more =>
    simpa only [List.cons_append] using Items.some (skips.cons ignored) element more

theorem More.skip {o : Options} {depth : Int} {t : Token} {rest : List Token} {nodes : List Node}
    (ignored : o.ignores t.group = true) (more : More o depth rest nodes) :
    More o depth (t :: rest) nodes := by
  cases more with
  | last skips => exact .last (skips.cons ignored)
  | next skips comma seen items =>
    simpa only [List.cons_append] using More.next (skips.cons ignored) comma seen items

/-- The runs of tokens that complete a list of which a part is read. After a
comma an element has to follow. -/
def Slot.Derives (o : Options) (depth : Int) : Slot → List Token → List Node → Prop
  | .first => Items o depth
  | .filled => More o depth
  | .after _ => fun tokens nodes => nodes ≠ [] ∧ Items o depth tokens nodes

namespace Slot.Derives

variable {o : Options} {depth : Int} {slot : Slot} {t : Token} {rest : List Token}
  {nodes : List Node}

theorem skip (ignored : o.ignores t.group = true) (derives : slot.Derives o depth rest nodes) :
    slot.Derives o depth (t :: rest) nodes := by
  cases slot with
  | first => exact Items.skip ignored derives
  | filled => exact More.skip ignored derives
  | after comma => exact ⟨derives.1, derives.2.skip ignored⟩

theorem comma (comma : t.kind = .comma) (seen : o.ignores t.group = false)
    (derives : (Slot.after t).Derives o depth rest nodes) :
    Slot.filled.Derives o depth (t :: rest) nodes := by
  obtain ⟨nonempty, items⟩ := derives
  cases nodes with
  | nil => exact absurd rfl nonempty
  | cons node nodes => exact More.next o.skips_nil comma seen items

theorem item (free : slot.isFilled = false) {first : List Token} {node : Node}
    (element : Element o depth first node) (derives : Slot.filled.Derives o depth rest nodes) :
    slot.Derives o depth (first ++ rest) (node :: nodes) := by
  have items : Items o depth (first ++ rest) (node :: nodes) :=
    Items.some o.skips_nil element derives
  cases slot with
  | first => exact items
  | filled => cases free
  | after comma => exact ⟨List.cons_ne_nil _ _, items⟩

end Slot.Derives

section Balance

variable {o : Options} {shape : Shape}

/-- The first token of a structure and those up to its opening bracket, then
a balanced content and its closer, are balanced in both kinds of brackets. -/
theorem Lead.balanced {nested : Shape} {first closer : Token} {lead inner : List Token}
    (leads : Lead o nested lead) (begins : first.kind.shape? = some nested)
    (closes : closer.kind = nested.closer) (seen : o.ignores shape.group = false)
    (balanced : shape.Balanced inner) :
    shape.Balanced (first :: (lead ++ inner ++ [closer])) := by
  cases leads with
  | array =>
    have opens : first.kind = .openSquare := Kind.shape?_eq_some_iff.mp begins
    cases shape with
    | array => exact balanced.enclose opens closes
    | call =>
      refine (Shape.balanced_singleton ?_ ?_).append (balanced.append (Shape.balanced_singleton ?_ ?_))
        <;> simp [opens, closes, Shape.opener, Shape.closer]
  | @call gap opener skips opens _ =>
    have named : first.kind = .function := Kind.shape?_eq_some_iff.mp begins
    have name : shape.Balanced [first] := by
      refine Shape.balanced_singleton ?_ ?_ <;> cases shape <;>
        simp [named, Shape.opener, Shape.closer]
    have rest : shape.Balanced (opener :: (inner ++ [closer])) := by
      cases shape with
      | call => exact balanced.enclose opens closes
      | array =>
        refine (Shape.balanced_singleton ?_ ?_).append
          (balanced.append (Shape.balanced_singleton ?_ ?_))
          <;> simp [opens, closes, Shape.opener, Shape.closer]
    simpa using name.append ((skips.balanced seen).append rest)

mutual

/-- Brackets that are not passed over are balanced in an element. -/
theorem Element.balanced {depth : Int} {tokens : List Token} {node : Node}
    (seen : o.ignores shape.group = false) : Element o depth tokens node → shape.Balanced tokens
  | .plain group _ => by
    refine Shape.balanced_singleton ?_ ?_ <;> intro same <;> rw [Token.group, same] at group
    · rw [shape.group_opener] at group
      cases shape <;> simp [Shape.group] at group
    · rw [shape.group_closer] at group
      cases shape <;> simp [Shape.group] at group
  | .string kind _ _ => by
    refine Shape.balanced_singleton ?_ ?_ <;> rw [kind] <;> cases shape <;> decide
  | .nested begins _ _ _ leads items closes =>
    leads.balanced begins closes seen (items.balanced seen)

theorem Items.balanced {depth : Int} {tokens : List Token} {nodes : List Node}
    (seen : o.ignores shape.group = false) : Items o depth tokens nodes → shape.Balanced tokens
  | .none skips => skips.balanced seen
  | .some skips element more =>
    ((skips.balanced seen).append (element.balanced seen)).append (more.balanced seen)

theorem More.balanced {depth : Int} {tokens : List Token} {nodes : List Node}
    (seen : o.ignores shape.group = false) : More o depth tokens nodes → shape.Balanced tokens
  | .last skips => skips.balanced seen
  | @More.next _ _ gap comma rest _ _ skips kind _ items => by
    have single : shape.Balanced [comma] := by
      refine Shape.balanced_singleton ?_ ?_ <;> rw [kind] <;> cases shape <;> decide
    exact (skips.balanced seen).append (single.append (items.balanced seen))

end

/-- A derived list between its brackets is located, whatever follows. -/
theorem Items.located {depth : Int} {closer : Token} {lead inner : List Token}
    {nodes : List Node} (items : Items o (depth + 1) inner nodes)
    (seen : o.ignores shape.group = false) (shallow : depth < o.maxDepth)
    (leads : Lead o shape lead) (closes : closer.kind = shape.closer) (first : Token)
    (after : List Token) :
    shape.locate o depth first (lead ++ inner ++ [closer] ++ after) = .ok ⟨lead.length, inner⟩ := by
  have enclosing := (items.balanced seen).enclosed closes after
  refine Shape.locate_eq_ok_iff.mpr ⟨shallow, lead, inner ++ closer :: after, leads, ?_, rfl, enclosing⟩
  simp

end Balance

end RuleForest
