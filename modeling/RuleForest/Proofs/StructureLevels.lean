import Mathlib.Data.List.Forall2
import RuleForest.Proofs.DerivedReading

namespace RuleForest

/-- Whether trees of this label are arrays or calls. -/
def Shape.isLabel (label : String) : Bool :=
  label = Shape.array.label || label = Shape.call.label

mutual

/-- The largest number of arrays and calls on a path down from the node. -/
def Node.height : Node → Nat
  | .token _ | .leaf _ => 0
  | .tree label children =>
    if Shape.isLabel label then heightAll children + 1 else heightAll children

def Node.heightAll : List Node → Nat
  | [] => 0
  | node :: rest => max node.height (heightAll rest)

end

mutual

/-- The arrays and calls in a node, each before those in it, with the number
of others around it. The count starts at some level. -/
def Node.structures (level : Nat) : Node → List (Nat × Node)
  | .token _ | .leaf _ => []
  | .tree label children =>
    if Shape.isLabel label then (level, .tree label children) :: structuresAll (level + 1) children
    else structuresAll level children

def Node.structuresAll (level : Nat) : List Node → List (Nat × Node)
  | [] => []
  | node :: rest => node.structures level ++ structuresAll level rest

end

/-- The first tokens of the structures in a run of tokens, from left to
right. Each has the number of brackets that are open there. -/
def Options.openers (o : Options) (level : Nat) : List Token → List (Nat × Token)
  | [] => []
  | t :: rest =>
    if o.ignores t.group then o.openers level rest
    else
      match t.kind with
      | .openSquare => (level, t) :: o.openers (level + 1) rest
      | .function => (level, t) :: o.openers level rest
      | .openParen => o.openers (level + 1) rest
      | .closeSquare | .closeParen => o.openers (level - 1) rest
      | _ => o.openers level rest

/-- A structure, with its level, that is made from the token on. -/
def Node.OpenedBy (structure_ : Nat × Node) (opener : Nat × Token) : Prop :=
  structure_.1 = opener.1 ∧ ∃ shape items, structure_.2 = Shape.node shape opener.2 items

theorem Node.height_node (shape : Shape) (first : Token) (items : List Node) :
    (shape.node first items).height = heightAll items + 1 := by
  cases shape with
  | array => rw [Shape.node, array, height, if_pos (by decide)]
  | call =>
    have args : (Node.tree argsLabel items).height = heightAll items := by
      rw [height, if_neg (by decide)]
    rw [Shape.node, call, height, if_pos (by decide), heightAll, heightAll, heightAll, args, height,
      Nat.max_zero, Nat.zero_max]

theorem Node.structures_node (shape : Shape) (first : Token) (items : List Node) (level : Nat) :
    (shape.node first items).structures level =
      (level, shape.node first items) :: structuresAll (level + 1) items := by
  cases shape with
  | array => rw [Shape.node, array, structures, if_pos (by decide)]
  | call =>
    have args : (Node.tree argsLabel items).structures (level + 1) =
        structuresAll (level + 1) items := by
      rw [structures, if_neg (by decide)]
    rw [Shape.node, call, structures, if_pos (by decide), structuresAll, structuresAll, structuresAll,
      args, structures, List.nil_append, List.append_nil]

mutual

/-- A node is as high as the deepest level of its structures says. -/
theorem Node.height_le_iff (level n : Nat) :
    ∀ node : Node, node.height ≤ n ↔ ∀ p ∈ node.structures level, p.1 < level + n
  | .token _ => by simp [height, structures]
  | .leaf _ => by simp [height, structures]
  | .tree label children => by
    rw [height, structures]
    by_cases labelled : Shape.isLabel label = true
    · rw [if_pos labelled, if_pos labelled, List.forall_mem_cons]
      cases n with
      | zero => simp
      | succ n =>
        have inner := heightAll_le_iff (level + 1) n children
        rw [Nat.add_right_comm] at inner
        constructor
        · intro bound
          exact ⟨by simp, inner.mp (by omega)⟩
        · rintro ⟨_, deeper⟩
          exact Nat.succ_le_succ (inner.mpr deeper)
    · rw [if_neg labelled, if_neg labelled]
      exact heightAll_le_iff level n children

theorem Node.heightAll_le_iff (level n : Nat) :
    ∀ nodes : List Node, heightAll nodes ≤ n ↔ ∀ p ∈ structuresAll level nodes, p.1 < level + n
  | [] => by simp [heightAll, structuresAll]
  | node :: rest => by
    rw [heightAll, structuresAll, List.forall_mem_append, ← height_le_iff level n node,
      ← heightAll_le_iff level n rest]
    exact Nat.max_le

end

section Openers

variable {o : Options} {shape : Shape} {level : Nat} {t first closer : Token}
  {gap lead tokens before behind : List Token} {opened more : List (Nat × Token)}

theorem Options.openers_skip (ignored : o.ignores t.group = true) (level : Nat) (rest : List Token) :
    o.openers level (t :: rest) = o.openers level rest := by
  rw [openers, if_pos ignored]

theorem Options.openers_gap (skips : o.Skips gap) (level : Nat) (rest : List Token) :
    o.openers level (gap ++ rest) = o.openers level rest := by
  induction gap with
  | nil => rfl
  | cons t gap ih =>
    obtain ⟨ignored, further⟩ := List.forall_mem_cons.mp skips
    rw [List.cons_append, openers_skip ignored, ih further]

theorem Options.openers_closer (closes : closer.kind = shape.closer)
    (seen : o.ignores closer.group = false) (level : Nat) (rest : List Token) :
    o.openers (level + 1) (closer :: rest) = o.openers level rest := by
  rw [openers, if_neg (by simp [seen]), closes]
  cases shape <;> rfl

/-- The first token of a structure and those up to its content are one
opener, and a bracket that is open from there on. -/
theorem Lead.openers (leads : Lead o shape lead) (begins : first.kind.shape? = some shape)
    (seen : o.ignores first.group = false) (level : Nat) (rest : List Token) :
    o.openers level (first :: (lead ++ rest)) = (level, first) :: o.openers (level + 1) rest := by
  have head := Kind.shape?_eq_some_iff.mp begins
  rw [Options.openers, if_neg (by simp [seen]), head]
  cases leads with
  | array => rfl
  | @call gap opener skips opens visible =>
    have bracket : o.ignores opener.group = false := by rwa [Token.group, opens]
    simp only [Shape.head, List.append_assoc]
    rw [Options.openers_gap skips, List.singleton_append, Options.openers, if_neg (by simp [bracket]), opens]

/-- A run of tokens with the openers in it, that leaves as many brackets open
as it finds. -/
def Options.Opens (o : Options) (level : Nat) (tokens : List Token)
    (opened : List (Nat × Token)) : Prop :=
  ∀ rest, o.openers level (tokens ++ rest) = opened ++ o.openers level rest

theorem Options.Opens.eq (opens : o.Opens level tokens opened) : o.openers level tokens = opened := by
  have whole := opens []
  rwa [List.append_nil, openers, List.append_nil] at whole

theorem Options.Opens.append (first : o.Opens level before opened)
    (second : o.Opens level behind more) : o.Opens level (before ++ behind) (opened ++ more) := by
  intro rest
  rw [List.append_assoc, first, second, List.append_assoc]

theorem Options.Skips.opens (skips : o.Skips gap) (level : Nat) : o.Opens level gap [] :=
  fun rest => o.openers_gap skips level rest

theorem Token.other_of_group (group : t.group = .value ∨ t.group = .variable) :
    t.kind ∉ [Kind.openSquare, .closeSquare, .openParen, .closeParen, .function] := by
  unfold Token.group at group
  cases kind : t.kind <;> simp_all [Kind.group]

/-- A token that is no bracket and begins no structure is no opener. -/
theorem Options.opens_singleton
    (other : t.kind ∉ [Kind.openSquare, .closeSquare, .openParen, .closeParen, .function])
    (level : Nat) : o.Opens level [t] [] := by
  intro rest
  rw [List.singleton_append, openers]
  split
  · rfl
  · cases kind : t.kind <;> simp_all

/-- Neither bracket of a structure is passed over if its first token is not. -/
theorem Lead.visible (leads : Lead o shape lead) (begins : first.kind.shape? = some shape)
    (seen : o.ignores first.group = false) : o.ignores shape.group = false := by
  cases leads with
  | array => rwa [Token.group, Kind.shape?_eq_some_iff.mp begins] at seen
  | call _ _ visible => exact visible

theorem Lead.opens {inner : List Token} (leads : Lead o shape lead)
    (begins : first.kind.shape? = some shape) (seen : o.ignores first.group = false)
    (closes : closer.kind = shape.closer) (content : o.Opens (level + 1) inner opened) :
    o.Opens level (first :: (lead ++ inner ++ [closer])) ((level, first) :: opened) := by
  have visible : o.ignores closer.group = false := by
    rw [Token.group, closes, shape.group_closer]
    exact leads.visible begins seen
  intro rest
  rw [List.cons_append, List.append_assoc, List.append_assoc, leads.openers begins seen, content,
    List.singleton_append, Options.openers_closer closes visible]
  rfl

end Openers

mutual

/-- The openers in an element are those of the structures in its node, at
the same levels. -/
theorem Element.opens {o : Options} {depth : Int} {tokens : List Token} {node : Node} (level : Nat) :
    Element o depth tokens node → ∃ opened, o.Opens level tokens opened ∧
      List.Forall₂ Node.OpenedBy (node.structures level) opened
  | .plain group _ => ⟨[], Options.opens_singleton (Token.other_of_group group) level, .nil⟩
  | .string string _ _ => ⟨[], Options.opens_singleton (by simp [string]) level, .nil⟩
  | @Element.nested _ _ shape first lead inner closer nodes begins _ _ seen leads content closes => by
    obtain ⟨opened, opens, same⟩ := content.opens (level + 1)
    refine ⟨(level, first) :: opened, leads.opens begins seen closes opens, ?_⟩
    rw [Node.structures_node]
    exact .cons ⟨rfl, shape, nodes, rfl⟩ same

theorem Items.opens {o : Options} {depth : Int} {tokens : List Token} {nodes : List Node}
    (level : Nat) : Items o depth tokens nodes → ∃ opened, o.Opens level tokens opened ∧
      List.Forall₂ Node.OpenedBy (Node.structuresAll level nodes) opened
  | .none skips => ⟨[], skips.opens level, .nil⟩
  | .some skips element more => by
    obtain ⟨first, opens, same⟩ := element.opens level
    obtain ⟨others, further, rest⟩ := more.opens level
    exact ⟨first ++ others, ((skips.opens level).append opens).append further,
      List.rel_append same rest⟩

theorem More.opens {o : Options} {depth : Int} {tokens : List Token} {nodes : List Node}
    (level : Nat) : More o depth tokens nodes → ∃ opened, o.Opens level tokens opened ∧
      List.Forall₂ Node.OpenedBy (Node.structuresAll level nodes) opened
  | .last skips => ⟨[], skips.opens level, .nil⟩
  | @More.next _ _ gap comma rest node nodes skips kind _ items => by
    obtain ⟨opened, opens, same⟩ := items.opens level
    have separates : o.Opens level [comma] [] := Options.opens_singleton (by simp [kind]) level
    refine ⟨opened, ?_, same⟩
    simpa using (skips.opens level).append (separates.append opens)

end

end RuleForest
