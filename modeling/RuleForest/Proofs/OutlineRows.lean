import RuleForest.Outline
import RuleForest.Proofs.WrittenText

namespace RuleForest

namespace Node

/-- What the line of a node begins with, behind its indent. -/
def heading : Node → String
  | .token t => t.kind.name
  | .leaf l => l.label
  | .tree label _ => label

/-- The written value of a node that has one. -/
def entered? : Node → Option String
  | .token t => some t.value.written
  | .leaf l => some (quoted l.text)
  | .tree _ _ => none

/-- What the line of a node says, behind its indent. -/
def caption (node : Node) : String :=
  match node.entered? with
  | some value => Outline.entry node.heading value
  | none => node.heading

mutual

/-- A node and all nodes below it, each before those below itself, with its
depth. The count of the depth starts at some level. -/
def preorder (level : Nat) : Node → List (Nat × Node)
  | .token t => [(level, .token t)]
  | .leaf l => [(level, .leaf l)]
  | .tree label children => (level, .tree label children) :: preorderAll (level + 1) children

def preorderAll (level : Nat) : List Node → List (Nat × Node)
  | [] => []
  | node :: rest => node.preorder level ++ preorderAll level rest

end

mutual

/-- A node without its places, in which each plain token holds the written
form of its value. -/
def sketch : Node → Node
  | .token t => .token ⟨t.kind, .text t.value.written, 0, 0⟩
  | .leaf l => .leaf { label := l.label, text := l.text }
  | .tree label children => .tree label (sketchAll children)

def sketchAll : List Node → List Node
  | [] => []
  | node :: rest => node.sketch :: sketchAll rest

end

/-- A node whose line can be told from that of any other node: no token is a
literal, as leaves are, and no leaf or tree has a label of its own. -/
inductive Legible : Node → Prop
  | token {t : Token} : t.kind ≠ .string → Legible (.token t)
  | leaf {l : Leaf} : l.label ∈ ["STRING", "NAME"] → Legible (.leaf l)
  | tree {label : String} {children : List Node} : label ∈ ["array", "call", "args"] →
      (∀ child ∈ children, Legible child) → Legible (.tree label children)

/-- The rows of an outline: how deep a node is, and what its line says. -/
def rows (level : Nat) (node : Node) : List (Nat × String) :=
  (node.preorder level).map fun p => (p.1, p.2.caption)

def rowsAll (level : Nat) (nodes : List Node) : List (Nat × String) :=
  (preorderAll level nodes).map fun p => (p.1, p.2.caption)

theorem rows_tree (level : Nat) (label : String) (children : List Node) :
    rows level (.tree label children) = (level, label) :: rowsAll (level + 1) children := by
  rw [rows, preorder, List.map_cons, rowsAll]
  rfl

theorem rowsAll_cons (level : Nat) (node : Node) (rest : List Node) :
    rowsAll level (node :: rest) = rows level node ++ rowsAll level rest := by
  rw [rowsAll, preorderAll, List.map_append, rows, rowsAll]

/-- The row of a node comes first among those of its tree. -/
theorem rows_eq_cons (level : Nat) (node : Node) :
    ∃ below, rows level node = (level, node.caption) :: below := by
  cases node with
  | token t => exact ⟨_, rfl⟩
  | leaf l => exact ⟨_, rfl⟩
  | tree label children => exact ⟨_, rows_tree level label children⟩

end Node

section Lines

variable {node : Node}

/-- The characters of the line of a row, without its end. -/
def Outline.rowLine (indent : String) (row : Nat × String) : List Char :=
  (String.join (List.replicate row.1 indent)).toList ++ row.2.toList

theorem Outline.toList_line (indent : String) (level : Nat) (text : String) :
    (Outline.line indent level text).toList = rowLine indent (level, text) ++ ['\n'] := by
  rw [line, String.toList_append, String.toList_append]
  rfl

mutual

theorem Node.toList_outlineAt (indent : String) (level : Nat) : ∀ node : Node,
    (node.outlineAt indent level).toList =
      (node.rows level).flatMap fun row => Outline.rowLine indent row ++ ['\n']
  | .token t => by
    rw [outlineAt, Outline.toList_line]
    exact (List.append_nil _).symm
  | .leaf l => by
    rw [outlineAt, Outline.toList_line]
    exact (List.append_nil _).symm
  | .tree label children => by
    rw [outlineAt, String.toList_append, Outline.toList_line, toList_outlineAll indent (level + 1) children,
      rows_tree, List.flatMap_cons]

theorem Node.toList_outlineAll (indent : String) (level : Nat) : ∀ nodes : List Node,
    (outlineAll indent level nodes).toList =
      (rowsAll level nodes).flatMap fun row => Outline.rowLine indent row ++ ['\n']
  | [] => rfl
  | node :: rest => by
    rw [outlineAll, String.toList_append, toList_outlineAt indent level node,
      toList_outlineAll indent level rest, rowsAll_cons, List.flatMap_append]

end

/-- Lines that are ended one by one can be told apart again, if no line holds
an end itself. -/
theorem splitOn_ended {lines : List (List Char)} (solid : ∀ l ∈ lines, '\n' ∉ l) :
    List.splitOn '\n' (lines.flatMap fun l => l ++ ['\n']) = lines ++ [[]] := by
  induction lines with
  | nil => rfl
  | cons l rest ih =>
    obtain ⟨first, others⟩ := List.forall_mem_cons.mp solid
    have apart : ∀ c ∈ l, (c == '\n') = false := by
      intro c member
      exact beq_false_of_ne fun same => first (same ▸ member)
    rw [List.flatMap_cons, List.append_assoc, List.singleton_append, List.splitOn_eq_splitOnP,
      List.splitOnP_append_cons_of_forall_mem apart _ rfl, ← List.splitOn_eq_splitOnP, ih others,
      List.cons_append]

theorem append_cons_inj {α : Type} {sep : α} {xs ys vs ws : List α} (left : sep ∉ xs)
    (right : sep ∉ ys) (same : xs ++ sep :: vs = ys ++ sep :: ws) : xs = ys ∧ vs = ws := by
  induction xs generalizing ys with
  | nil =>
    cases ys with
    | nil => exact ⟨rfl, (List.cons.inj same).2⟩
    | cons y ys => exact absurd (List.mem_cons.mpr (Or.inl (List.cons.inj same).1)) right
  | cons x xs ih =>
    rw [List.mem_cons, not_or] at left
    cases ys with
    | nil => exact absurd (List.cons.inj same).1.symm left.1
    | cons y ys =>
      rw [List.mem_cons, not_or] at right
      obtain ⟨rfl, rest⟩ := List.cons.inj same
      obtain ⟨rfl, behind⟩ := ih left.2 right.2 rest
      exact ⟨rfl, behind⟩

/-- The blanks in front of a text can be counted unless it begins with one. -/
theorem blanks_inj {m n : Nat} {xs ys : List Char} (left : xs.head? ≠ some ' ')
    (right : ys.head? ≠ some ' ')
    (same : List.replicate m ' ' ++ xs = List.replicate n ' ' ++ ys) : m = n ∧ xs = ys := by
  induction m generalizing n with
  | zero =>
    cases n with
    | zero => exact ⟨rfl, same⟩
    | succ n =>
      rw [List.replicate_zero, List.nil_append] at same
      rw [same] at left
      exact absurd rfl left
  | succ m ih =>
    cases n with
    | zero =>
      rw [List.replicate_zero, List.nil_append] at same
      rw [← same] at right
      exact absurd rfl right
    | succ n =>
      rw [List.replicate_succ, List.replicate_succ, List.cons_append, List.cons_append] at same
      obtain ⟨count, rest⟩ := ih (List.cons.inj same).2
      exact ⟨congrArg (· + 1) count, rest⟩

namespace Node

variable {a b node : Node} {level : Nat}

theorem newline_not_mem_entered {value : String} (entered : node.entered? = some value) :
    '\n' ∉ value.toList := by
  cases node with
  | token t =>
    cases entered
    exact Value.newline_not_mem_written t.value
  | leaf l =>
    cases entered
    exact newline_not_mem_quoted l.text
  | tree label children => cases entered

/-- The caption of a node: its heading, and behind a tab its value. -/
theorem toList_caption (node : Node) : node.caption.toList =
    node.heading.toList ++ match node.entered? with
      | some value => '\t' :: value.toList
      | none => [] := by
  rw [caption]
  cases node.entered? with
  | none => exact (List.append_nil _).symm
  | some value =>
    simp only [Outline.entry, String.toList_append, List.append_assoc]
    rfl

namespace Legible

/-- A text without blanks, from one check of its characters. -/
theorem solid_of_all {text : List Char}
    (checked : text ≠ [] ∧ text.all (fun c => c != ' ' && (c != '\t' && c != '\n')) = true) :
    text ≠ [] ∧ ∀ c ∈ text, c ≠ ' ' ∧ c ≠ '\t' ∧ c ≠ '\n' := by
  refine ⟨checked.1, fun c member => ?_⟩
  have here := List.all_eq_true.mp checked.2 c member
  simpa only [Bool.and_eq_true, bne_iff_ne] using here

theorem heading_solid (legible : node.Legible) :
    node.heading.toList ≠ [] ∧ ∀ c ∈ node.heading.toList, c ≠ ' ' ∧ c ≠ '\t' ∧ c ≠ '\n' := by
  refine solid_of_all ?_
  cases legible with
  | @token t _ =>
    rw [heading]
    cases t.kind <;> decide
  | leaf labelled =>
    rw [heading]
    simp only [List.mem_cons, List.not_mem_nil, or_false] at labelled
    rcases labelled with same | same <;> rw [same] <;> decide
  | tree labelled _ =>
    rw [heading]
    simp only [List.mem_cons, List.not_mem_nil, or_false] at labelled
    rcases labelled with same | same | same <;> rw [same] <;> decide

theorem newline_not_mem_caption (legible : node.Legible) : '\n' ∉ node.caption.toList := by
  have heading : '\n' ∉ node.heading.toList := fun here => (legible.heading_solid.2 _ here).2.2 rfl
  rw [toList_caption, List.mem_append, not_or]
  refine ⟨heading, ?_⟩
  cases entered : node.entered? with
  | none => exact List.not_mem_nil
  | some value =>
    rw [List.mem_cons, not_or]
    exact ⟨by decide, newline_not_mem_entered entered⟩

theorem head?_caption (legible : node.Legible) : node.caption.toList.head? ≠ some ' ' := by
  obtain ⟨nonempty, solid⟩ := legible.heading_solid
  obtain ⟨c, rest, same⟩ := List.exists_cons_of_ne_nil nonempty
  rw [toList_caption, same, List.cons_append, List.head?_cons, ne_eq, Option.some.injEq]
  exact (solid c (by rw [same]; exact List.mem_cons_self)).1

/-- Captions are the same only for the same heading and value, as a heading
holds no tab. -/
theorem caption_inj (left : a.Legible) (right : b.Legible) (same : a.caption = b.caption) :
    a.heading = b.heading ∧ a.entered? = b.entered? := by
  have leftTab : '\t' ∉ a.heading.toList := fun here => (left.heading_solid.2 _ here).2.1 rfl
  have rightTab : '\t' ∉ b.heading.toList := fun here => (right.heading_solid.2 _ here).2.1 rfl
  have chars := congrArg String.toList same
  rw [toList_caption, toList_caption] at chars
  cases here : a.entered? with
  | none =>
    cases there : b.entered? with
    | none =>
      simp only [here, there, List.append_nil] at chars
      exact ⟨String.toList_inj.mp chars, rfl⟩
    | some value =>
      simp only [here, there, List.append_nil] at chars
      refine absurd ?_ leftTab
      simp [chars]
  | some value =>
    cases there : b.entered? with
    | none =>
      simp only [here, there, List.append_nil] at chars
      refine absurd ?_ rightTab
      simp [← chars]
    | some other =>
      simp only [here, there] at chars
      obtain ⟨headings, values⟩ := append_cons_inj leftTab rightTab chars
      exact ⟨String.toList_inj.mp headings, congrArg some (String.toList_inj.mp values)⟩

end Legible

end Node

end Lines

end RuleForest
