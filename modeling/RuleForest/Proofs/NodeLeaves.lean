import Mathlib.Data.List.Forall2
import RuleForest.Proofs.DerivedReading

namespace RuleForest

mutual

/-- The leaves and plain tokens of a node from left to right. -/
def Node.leaves : Node → List Node
  | .token t => [.token t]
  | .leaf l => [.leaf l]
  | .tree _ children => leavesAll children

def Node.leavesAll : List Node → List Node
  | [] => []
  | node :: rest => node.leaves ++ leavesAll rest

end

theorem Node.leaves_node (shape : Shape) (first : Token) (nodes : List Node) :
    (shape.node first nodes).leaves = match shape with
      | .array => leavesAll nodes
      | .call => .leaf (Shape.nameLeaf first) :: leavesAll nodes := by
  cases shape with
  | array => rw [Shape.node, array, leaves]
  | call => simp [Shape.node, call, leaves, leavesAll]

/-- The kinds that leave no trace in a node besides its form. -/
def Kind.isPunctuation : Kind → Bool
  | .openSquare | .closeSquare | .openParen | .closeParen | .comma => true
  | _ => false

/-- What a token leaves in the node that is made from it: the name of a call
its name leaf, a literal its leaf, and every other token itself. -/
inductive Token.Leaves : Token → Node → Prop
  | name {t : Token} : t.kind = .function → t.Leaves (.leaf (Shape.nameLeaf t))
  | string {t : Token} {leaf : Leaf} : t.kind = .string → StringLiteral.leaf t = .ok leaf →
      t.Leaves (.leaf leaf)
  | plain {t : Token} : t.isComposite = false → t.Leaves (.token t)

/-- The tokens behind the first one of a range that leave something: those
that are neither passed over nor punctuation. -/
def Options.kept (o : Options) (tokens : List Token) : List Token :=
  tokens.filter fun t => !o.ignores t.group && !t.kind.isPunctuation

/-- The tokens of a range that leave something. The first one is not passed
over whatever its group. -/
def Options.survivors (o : Options) : List Token → List Token
  | [] => []
  | first :: rest => (if first.kind.isPunctuation then [] else [first]) ++ o.kept rest

section Kept

variable {o : Options} {t : Token}

theorem Options.kept_append (first second : List Token) :
    o.kept (first ++ second) = o.kept first ++ o.kept second :=
  List.filter_append first second

theorem Options.kept_cons (t : Token) (rest : List Token) :
    o.kept (t :: rest) = o.kept [t] ++ o.kept rest :=
  o.kept_append [t] rest

theorem Options.Skips.kept {gap : List Token} (skips : o.Skips gap) : o.kept gap = [] := by
  refine List.filter_eq_nil_iff.mpr fun t member => ?_
  simp [skips t member]

theorem Options.kept_punctuation (punctuation : t.kind.isPunctuation = true) : o.kept [t] = [] := by
  simp [kept, punctuation]

theorem Options.kept_seen (seen : o.ignores t.group = false)
    (plain : t.kind.isPunctuation = false) : o.kept [t] = [t] := by
  simp [kept, seen, plain]

theorem Lead.kept {shape : Shape} {lead : List Token} (leads : Lead o shape lead) :
    o.kept lead = [] := by
  cases leads with
  | array => rfl
  | call skips opens _ =>
    rw [Options.kept_append, skips.kept, Options.kept_punctuation (by rw [opens]; rfl),
      List.append_nil]

theorem Shape.kept_closer {shape : Shape} (closes : t.kind = shape.closer) : o.kept [t] = [] := by
  refine Options.kept_punctuation ?_
  rw [closes]
  cases shape <;> rfl

end Kept

/-- A structure leaves what its content leaves, a call its name before that. -/
theorem Shape.survivors_leaves {o : Options} {shape : Shape} {first closer : Token}
    {lead inner : List Token} {nodes : List Node} (begins : first.kind = shape.head)
    (leads : Lead o shape lead) (closes : closer.kind = shape.closer)
    (content : List.Forall₂ Token.Leaves (o.kept inner) (Node.leavesAll nodes)) :
    List.Forall₂ Token.Leaves (o.survivors (first :: (lead ++ inner ++ [closer])))
      (shape.node first nodes).leaves := by
  have behind : o.kept (lead ++ inner ++ [closer]) = o.kept inner := by
    rw [Options.kept_append, Options.kept_append, leads.kept, kept_closer closes, List.nil_append,
      List.append_nil]
  rw [Options.survivors, behind, Node.leaves_node, begins]
  cases shape with
  | array => exact content
  | call => exact .cons (.name begins) content

mutual

/-- Read from left to right, the leaves of an element are those that its
tokens leave, none lost, repeated or exchanged. -/
theorem Element.kept_leaves {o : Options} {depth : Int} {tokens : List Token} {node : Node} :
    Element o depth tokens node → List.Forall₂ Token.Leaves (o.kept tokens) node.leaves
  | @Element.plain _ _ t group seen => by
    have plain : t.isComposite = false ∧ t.kind.isPunctuation = false := by
      unfold Token.group at group
      unfold Token.isComposite
      cases kind : t.kind <;> simp_all [Kind.isComposite, Kind.isPunctuation, Kind.group]
    rw [Options.kept_seen seen plain.2, Node.leaves]
    exact .cons (.plain plain.1) .nil
  | .string kind seen literal => by
    rw [Options.kept_seen seen (by rw [kind]; rfl), Node.leaves]
    exact .cons (.string kind literal) .nil
  | @Element.nested _ _ shape first lead inner closer nodes begins _ _ seen leads items closes => by
    have left := Shape.survivors_leaves (Kind.shape?_eq_some_iff.mp begins) leads closes
      items.kept_leaves
    have same : o.survivors (first :: (lead ++ inner ++ [closer])) =
        o.kept (first :: (lead ++ inner ++ [closer])) := by
      rw [Options.survivors, Options.kept_cons]
      cases punctuation : first.kind.isPunctuation with
      | true => rw [Options.kept_punctuation punctuation, if_pos rfl]
      | false => rw [Options.kept_seen seen punctuation, if_neg (by decide)]
    rwa [same] at left

theorem Items.kept_leaves {o : Options} {depth : Int} {tokens : List Token} {nodes : List Node} :
    Items o depth tokens nodes →
      List.Forall₂ Token.Leaves (o.kept tokens) (Node.leavesAll nodes)
  | .none skips => by
    rw [skips.kept, Node.leavesAll]
    exact .nil
  | .some skips element more => by
    rw [Options.kept_append, Options.kept_append, skips.kept, Node.leavesAll]
    exact List.rel_append element.kept_leaves more.kept_leaves

theorem More.kept_leaves {o : Options} {depth : Int} {tokens : List Token} {nodes : List Node} :
    More o depth tokens nodes →
      List.Forall₂ Token.Leaves (o.kept tokens) (Node.leavesAll nodes)
  | .last skips => by
    rw [skips.kept, Node.leavesAll]
    exact .nil
  | .next skips comma _ items => by
    rw [Options.kept_append, Options.kept_cons, skips.kept,
      Options.kept_punctuation (by rw [comma]; rfl)]
    exact items.kept_leaves

end

end RuleForest
