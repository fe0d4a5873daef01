import RuleForest.Proofs.MaterializedNode
import RuleForest.Proofs.OutlineRows

namespace RuleForest

namespace Node

/-- A node that is read somewhere on some stream, alone or with all others. -/
def Materialized (node : Node) : Prop :=
  ∃ (s : Stream) (o : Options) (depth : Int), (s.readNode o depth).2.result = .ok node ∨
    ∃ nodes, (s.readForest o depth).2.result = .ok nodes ∧ node ∈ nodes

mutual

theorem Structured.legible {o : Options} {node : Node} : Structured o node → node.Legible
  | .array fits => .tree (by decide) fun item member => (fits item member).legible
  | @Structured.call _ name args named fits => by
    have behind : (Node.tree "args" args).Legible :=
      .tree (by decide) fun arg member => (fits arg member).legible
    have labelled : name.label ∈ ["STRING", "NAME"] := by
      rw [named]
      decide
    refine .tree (by decide) fun child member => ?_
    rcases List.mem_cons.mp member with rfl | later
    · exact .leaf labelled
    · rwa [List.mem_singleton.mp later]

theorem Fits.legible {o : Options} {node : Node} : Fits o node → node.Legible
  | .structured structured => structured.legible
  | .string labelled => .leaf (by rw [labelled]; decide)
  | @Fits.token _ t group _ => by
    refine .token fun string => ?_
    rw [Token.group, string] at group
    rcases group with value | variable_
    · cases value
    · cases variable_

end

mutual

/-- A node can be written exactly if the value of each token in it can. -/
theorem isWritable_iff : (node : Node) → (node.isWritable = true ↔
    ∀ t, (token t).Occurs node → t.value.isWritable = true)
  | .token t => by
    refine ⟨fun writable u occurs => ?_, fun each => each t .here⟩
    cases occurs
    exact writable
  | .leaf l => ⟨fun _ _ occurs => (nomatch occurs), fun _ => rfl⟩
  | .tree label children => by
    rw [isWritable, areWritable_iff children]
    refine ⟨fun each t occurs => ?_, fun each child member t inside => each t (.within member inside)⟩
    cases occurs with
    | within member inside => exact each _ member t inside

theorem areWritable_iff : (nodes : List Node) → (areWritable nodes = true ↔
    ∀ node ∈ nodes, ∀ t, (token t).Occurs node → t.value.isWritable = true)
  | [] => by simp [areWritable]
  | node :: rest => by
    rw [areWritable, Bool.and_eq_true, isWritable_iff node, areWritable_iff rest,
      List.forall_mem_cons]

end

theorem outline?_eq_some_iff {node : Node} {indent text : String} :
    node.outline? indent = some text ↔ node.outline indent = text ∧
      ∀ t, (token t).Occurs node → t.value.isWritable = true := by
  rw [outline?, Option.ite_none_right_eq_some, Option.some.injEq, isWritable_iff, and_comm]

section Reading

variable {o : Options} {depth : Int} {t : Token} {rest : List Token} {node : Node}

theorem legible_of_read (run : (read o depth t rest).outcome.result = .ok node) : node.Legible := by
  rcases t.cases_kind with string | ⟨shape, begins⟩ | plain
  · rw [read_of_string string] at run
    cases literal : StringLiteral.leaf t with
    | error fault =>
      rw [literal] at run
      cases run
    | ok leaf =>
      rw [literal] at run
      cases run
      refine .leaf ?_
      rw [StringLiteral.label_leaf literal]
      decide
  · rw [read_of_shape begins] at run
    exact (build_structured run).2.legible
  · rw [read_of_plain plain] at run
    cases run
    refine .token fun string => ?_
    rw [Token.isComposite, string] at plain
    cases plain

theorem Materialized.legible (materialized : node.Materialized) : node.Legible := by
  obtain ⟨s, o, depth, alone | ⟨nodes, run, member⟩⟩ := materialized
  · rw [Stream.readNode] at alone
    split at alone
    · exact legible_of_read alone
    · cases alone
  · obtain ⟨_, k, _, _, places⟩ := forest_places run
    obtain ⟨i, found⟩ := List.mem_iff_getElem?.mp member
    obtain ⟨t, _, result, _⟩ := places i node found
    exact legible_of_read result

end Reading

section Recovery

variable {a b node : Node} {level : Nat} {as bs : List Node} {after later : List (Nat × String)}

/-- The first of some rows, if there is one, is above a level. -/
def Above (level : Nat) (rows : List (Nat × String)) : Prop :=
  ∀ row ∈ rows.head?, row.1 < level

theorem above_rowsAll (nodes : List Node) (above : Above level after) :
    Above (level + 1) (rowsAll level nodes ++ after) := by
  cases nodes with
  | nil => exact fun row first => Nat.lt_succ_of_lt (above row first)
  | cons node rest =>
    obtain ⟨below, rows⟩ := rows_eq_cons level node
    rw [rowsAll_cons, rows]
    rintro row ⟨⟩
    exact Nat.lt_succ_self level

/-- A plain token and a leaf never have the same heading, as no plain token is
a literal or a name. -/
theorem Legible.heading_ne {t : Token} {l : Leaf} (left : (Node.token t).Legible)
    (right : (Node.leaf l).Legible) : t.kind.name ≠ l.label := by
  cases left with
  | token solid =>
    cases right with
    | leaf labelled =>
      intro same
      rw [← same] at labelled
      revert solid labelled
      cases t.kind <;> decide

/-- Nodes with the same caption differ at most below themselves. -/
theorem Legible.same_form (left : a.Legible) (right : b.Legible) (same : a.caption = b.caption) :
    (a.sketch = b.sketch ∧ rows level a = [(level, a.caption)] ∧
        rows level b = [(level, b.caption)]) ∨
      ∃ label as bs, a = .tree label as ∧ b = .tree label bs := by
  obtain ⟨headings, values⟩ := left.caption_inj right same
  cases a with
  | token t =>
    cases b with
    | token u =>
      have kinds : t.kind = u.kind := by
        have named := congrArg Kind.ofName? headings
        rwa [heading, heading, Kind.ofName?_name, Kind.ofName?_name, Option.some.injEq] at named
      refine Or.inl ⟨?_, rfl, rfl⟩
      rw [sketch, sketch, kinds, Option.some.inj values]
    | leaf l => exact absurd headings (left.heading_ne right)
    | tree label bs => cases values
  | leaf l =>
    cases b with
    | token u => exact absurd headings.symm (right.heading_ne left)
    | leaf m =>
      refine Or.inl ⟨?_, rfl, rfl⟩
      have texts := quoted_inj (Option.some.inj values)
      have labels : l.label = m.label := headings
      rw [sketch, sketch, labels, texts]
    | tree label bs => cases values
  | tree label as =>
    cases b with
    | token u => cases values
    | leaf m => cases values
    | tree other bs =>
      cases headings
      exact Or.inr ⟨_, as, bs, rfl, rfl⟩

theorem caption_of_rows (same : rows level a ++ after = rows level b ++ later) :
    a.caption = b.caption := by
  obtain ⟨below, first⟩ := rows_eq_cons level a
  obtain ⟨under, second⟩ := rows_eq_cons level b
  rw [first, second, List.cons_append, List.cons_append] at same
  exact congrArg Prod.snd (List.cons.inj same).1

theorem Legible.child {label : String} {children : List Node} (legible : (Node.tree label children).Legible) :
    ∀ child ∈ children, child.Legible := by
  cases legible with
  | tree _ inside => exact inside

mutual

/-- The rows of a node end where the next one is no deeper than the node, and
tell the node up to its sketch. -/
theorem sketch_of_rows {b : Node} {level : Nat} {after later : List (Nat × String)}
    (right : b.Legible) (above : Above (level + 1) after) (beyond : Above (level + 1) later) :
    ∀ a : Node, a.Legible → rows level a ++ after = rows level b ++ later →
      a.sketch = b.sketch ∧ after = later
  | .token t, left, same => by
    rcases left.same_form right (caption_of_rows same) with ⟨sketches, first, second⟩ | ⟨_, _, _, ⟨⟩, _⟩
    rw [first, second] at same
    exact ⟨sketches, (List.cons.inj same).2⟩
  | .leaf l, left, same => by
    rcases left.same_form right (caption_of_rows same) with ⟨sketches, first, second⟩ | ⟨_, _, _, ⟨⟩, _⟩
    rw [first, second] at same
    exact ⟨sketches, (List.cons.inj same).2⟩
  | .tree label as, left, same => by
    rcases left.same_form right (caption_of_rows same) with ⟨sketches, first, second⟩ |
      ⟨_, _, bs, ⟨rfl, rfl⟩, rfl⟩
    · rw [first, second] at same
      exact ⟨sketches, (List.cons.inj same).2⟩
    · rw [rows_tree, rows_tree, List.cons_append, List.cons_append] at same
      obtain ⟨inside, behind⟩ :=
        sketchAll_of_rows right.child above beyond as left.child (List.cons.inj same).2
      exact ⟨by rw [sketch, sketch, inside], behind⟩

theorem sketchAll_of_rows {bs : List Node} {level : Nat} {after later : List (Nat × String)}
    (right : ∀ node ∈ bs, node.Legible) (above : Above level after) (beyond : Above level later) :
    ∀ as : List Node, (∀ node ∈ as, node.Legible) →
      rowsAll level as ++ after = rowsAll level bs ++ later →
      sketchAll as = sketchAll bs ∧ after = later
  | [], left, same => by
    cases bs with
    | nil => exact ⟨rfl, same⟩
    | cons b bs =>
      obtain ⟨below, first⟩ := rows_eq_cons level b
      rw [rowsAll_cons, first] at same
      have next : after.head? = some (level, b.caption) := congrArg List.head? same
      exact absurd (above _ next) (Nat.lt_irrefl level)
  | a :: as, left, same => by
    cases bs with
    | nil =>
      obtain ⟨below, first⟩ := rows_eq_cons level a
      rw [rowsAll_cons, first] at same
      have next : later.head? = some (level, a.caption) := congrArg List.head? same.symm
      exact absurd (beyond _ next) (Nat.lt_irrefl level)
    | cons b bs =>
      rw [rowsAll_cons, rowsAll_cons, List.append_assoc, List.append_assoc] at same
      rw [List.forall_mem_cons] at right left
      obtain ⟨here, rest⟩ :=
        sketch_of_rows right.1 (above_rowsAll as above) (above_rowsAll bs beyond) a left.1 same
      obtain ⟨others, behind⟩ := sketchAll_of_rows right.2 above beyond as left.2 rest
      exact ⟨by rw [sketchAll, sketchAll, here, others], behind⟩

end

mutual

/-- The rows of a node tell no more than its sketch. -/
theorem rows_of_sketch (level : Nat) : ∀ a b : Node, a.sketch = b.sketch → rows level a = rows level b
  | .token t, b, same => by
    cases b with
    | token u =>
      simp only [sketch, Node.token.injEq, Token.mk.injEq, Value.text.injEq, and_true] at same
      simp only [rows, preorder, List.map_cons, List.map_nil, caption, entered?, heading, same]
    | leaf l => cases same
    | tree label bs => cases same
  | .leaf l, b, same => by
    cases b with
    | token u => cases same
    | leaf m =>
      simp only [sketch, Node.leaf.injEq, Leaf.mk.injEq, and_true] at same
      simp only [rows, preorder, List.map_cons, List.map_nil, caption, entered?, heading, same]
    | tree label bs => cases same
  | .tree label as, b, same => by
    cases b with
    | token u => cases same
    | leaf m => cases same
    | tree other bs =>
      simp only [sketch, Node.tree.injEq] at same
      rw [rows_tree, rows_tree, same.1, rowsAll_of_sketch (level + 1) as bs same.2]

theorem rowsAll_of_sketch (level : Nat) : ∀ as bs : List Node, sketchAll as = sketchAll bs →
    rowsAll level as = rowsAll level bs
  | [], bs, same => by
    cases bs with
    | nil => rfl
    | cons b bs => cases same
  | a :: as, bs, same => by
    cases bs with
    | nil => cases same
    | cons b bs =>
      rw [sketchAll, sketchAll, List.cons.injEq] at same
      rw [rowsAll_cons, rowsAll_cons, rows_of_sketch level a b same.1,
        rowsAll_of_sketch level as bs same.2]

end

mutual

theorem Legible.legible_of_preorder (level : Nat) : ∀ node : Node, node.Legible →
    ∀ p ∈ node.preorder level, p.2.Legible
  | .token t, legible => by
    rintro p (_ | ⟨_, ⟨⟩⟩)
    exact legible
  | .leaf l, legible => by
    rintro p (_ | ⟨_, ⟨⟩⟩)
    exact legible
  | .tree label children, legible => by
    rw [preorder, List.forall_mem_cons]
    exact ⟨legible, legible_of_preorderAll (level + 1) children legible.child⟩

theorem Legible.legible_of_preorderAll (level : Nat) : ∀ nodes : List Node,
    (∀ node ∈ nodes, node.Legible) → ∀ p ∈ preorderAll level nodes, p.2.Legible
  | [], _ => nofun
  | node :: rest, legible => by
    rw [List.forall_mem_cons] at legible
    rw [preorderAll, List.forall_mem_append]
    exact ⟨legible_of_preorder level node legible.1, legible_of_preorderAll level rest legible.2⟩

end

/-- The outline of a legible node is one line a row, as no line is broken. -/
theorem Legible.splitOn_outline (legible : node.Legible) {indent : String}
    (solid : '\n' ∉ indent.toList) :
    List.splitOn '\n' (node.outline indent).toList =
      (node.rows 0).map (Outline.rowLine indent) ++ [[]] := by
  have whole : ∀ l ∈ (node.rows 0).map (Outline.rowLine indent), '\n' ∉ l := by
    intro l member
    obtain ⟨row, inside, rfl⟩ := List.mem_map.mp member
    obtain ⟨p, found, rfl⟩ := List.mem_map.mp inside
    have caption := (legible.legible_of_preorder 0 node p found).newline_not_mem_caption
    rw [Outline.rowLine, List.mem_append, not_or, String.toList_join]
    refine ⟨fun here => ?_, caption⟩
    obtain ⟨text, copies, within⟩ := List.mem_flatMap.mp here
    rw [List.eq_of_mem_replicate copies] at within
    exact solid within
  rw [outline, toList_outlineAt, ← splitOn_ended whole, List.flatMap_map]

theorem toList_blanks (level : Nat) :
    (String.join (List.replicate level Outline.standardIndent)).toList =
      List.replicate (2 * level) ' ' := by
  induction level with
  | zero => rfl
  | succ level ih =>
    rw [String.toList_join] at ih ⊢
    rw [List.replicate_succ, List.flatMap_cons, ih, Nat.mul_succ, Nat.add_comm, List.replicate_add]
    rfl

/-- With the standard indent, a line tells how deep its node is. -/
theorem row_of_line {row other : Nat × String} (left : row.2.toList.head? ≠ some ' ')
    (right : other.2.toList.head? ≠ some ' ')
    (same : Outline.rowLine Outline.standardIndent row = Outline.rowLine Outline.standardIndent other) :
    row = other := by
  rw [Outline.rowLine, Outline.rowLine, toList_blanks, toList_blanks] at same
  obtain ⟨blanks, texts⟩ := blanks_inj left right same
  exact Prod.ext (by omega) (String.toList_inj.mp texts)

theorem rows_of_lines {rows others : List (Nat × String)}
    (left : ∀ row ∈ rows, row.2.toList.head? ≠ some ' ')
    (right : ∀ row ∈ others, row.2.toList.head? ≠ some ' ')
    (same : rows.map (Outline.rowLine Outline.standardIndent) =
      others.map (Outline.rowLine Outline.standardIndent)) : rows = others := by
  induction rows generalizing others with
  | nil => exact (List.map_eq_nil_iff.mp same.symm).symm
  | cons row rest ih =>
    cases others with
    | nil => cases same
    | cons other others =>
      rw [List.forall_mem_cons] at left right
      obtain ⟨first, behind⟩ := List.cons.inj same
      rw [row_of_line left.1 right.1 first, ih left.2 right.2 behind]

theorem Legible.head?_rows (legible : node.Legible) :
    ∀ row ∈ node.rows 0, row.2.toList.head? ≠ some ' ' := by
  intro row member
  obtain ⟨p, found, rfl⟩ := List.mem_map.mp member
  exact (legible.legible_of_preorder 0 node p found).head?_caption

end Recovery

/-- The outline of a node that is read has one line for each node in it, from
the top down and from left to right. The line begins with one indent for each
node around that one. With the standard indent, the outline tells the node up
to the places of its tokens, which it leaves out, and up to their values, of
which it gives the written form. There is an outline if the value of each
token has one. -/
theorem outline_faithful {a b : Node} (left : a.Materialized) (right : b.Materialized) :
    (∀ indent : String, '\n' ∉ indent.toList →
      List.splitOn '\n' (a.outline indent).toList =
        ((a.preorder 0).map fun p =>
          (String.join (List.replicate p.1 indent)).toList ++ p.2.caption.toList) ++ [[]]) ∧
    (a.outline Outline.standardIndent = b.outline Outline.standardIndent ↔ a.sketch = b.sketch) ∧
    ∀ indent text, a.outline? indent = some text ↔ a.outline indent = text ∧
      ∀ t, (token t).Occurs a → t.value.isWritable = true := by
  have legible := left.legible
  have other := right.legible
  refine ⟨fun indent solid => ?_, ⟨fun same => ?_, fun same => ?_⟩,
    fun indent text => outline?_eq_some_iff⟩
  · rw [legible.splitOn_outline solid, rows, List.map_map]
    rfl
  · have blanks : '\n' ∉ Outline.standardIndent.toList := by decide
    have lines := congrArg (fun text : String => List.splitOn '\n' text.toList) same
    simp only [legible.splitOn_outline blanks, other.splitOn_outline blanks] at lines
    have rows := rows_of_lines legible.head?_rows other.head?_rows (List.append_cancel_right lines)
    have above : Above 1 [] := nofun
    exact (sketch_of_rows other above above a legible (congrArg (· ++ []) rows)).1
  · have rows := rows_of_sketch 0 a b same
    refine String.toList_inj.mp ?_
    rw [outline, outline, toList_outlineAt, toList_outlineAt, rows]

/-- An array of one literal, read at two places. -/
theorem outline_faithful_of_literal :
    (Node.array [.leaf ⟨"STRING", "a", some 8, some 1, some 11⟩]).outline Outline.standardIndent =
      (Node.array [.leaf ⟨"STRING", "a", some 1, some 1, some 4⟩]).outline Outline.standardIndent ∧
    List.splitOn '\n' ((Node.array [.leaf ⟨"STRING", "a", some 8, some 1, some 11⟩]).outline "-").toList =
      ["array".toList, "-STRING\t'a'".toList, []] := by
  have read (p : Int) :
      (Node.array [.leaf ⟨"STRING", "a", some p, some 1, some (p + 3)⟩]).Materialized := by
    have literal : StringLiteral.leaf ⟨.string, .text "'a'", p, 1⟩ =
        .ok ⟨"STRING", "a", some p, some 1, some (p + 3)⟩ := rfl
    have items : Items .standard 1 [⟨.string, .text "'a'", p, 1⟩]
        [.leaf ⟨"STRING", "a", some p, some 1, some (p + 3)⟩] :=
      .some (Options.skips_nil _) (.string rfl rfl literal) (.last (Options.skips_nil _))
    refine ⟨Stream.placed [.bare .openSquare, ⟨.string, .text "'a'", p, 1⟩, .bare .closeSquare] 0,
      .standard, 0, Or.inl ?_⟩
    rw [Stream.readNode_placed rfl, @read_of_shape _ _ _ _ .array rfl]
    exact build_eq_ok_iff.mpr ⟨⟨0, _⟩, _, rfl, elements_eq_ok_iff.mpr items, rfl, rfl⟩
  have both := outline_faithful (read 8) (read 1)
  exact ⟨both.2.1.mpr rfl, (both.1 "-" (by decide)).trans (by decide +kernel)⟩

end Node

end RuleForest
