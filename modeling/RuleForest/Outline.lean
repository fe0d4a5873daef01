import RuleForest.Node

namespace RuleForest

namespace Outline

/-- A line of an outline: the indent repeated once a level, then the text. -/
def line (indent : String) (level : Nat) (text : String) : String :=
  String.join (List.replicate level indent) ++ text ++ "\n"

/-- The text of a token or leaf: its label and its written value. -/
def entry (label value : String) : String :=
  label ++ "\t" ++ value

end Outline

namespace Node

mutual

/-- The outline of a node at some level. The children of a tree follow it,
one level deeper. -/
def outlineAt (indent : String) (level : Nat) : Node → String
  | .token t => Outline.line indent level (Outline.entry t.kind.name t.value.written)
  | .leaf l => Outline.line indent level (Outline.entry l.label (quoted l.text))
  | .tree label children =>
    Outline.line indent level label ++ outlineAll indent (level + 1) children

def outlineAll (indent : String) (level : Nat) : List Node → String
  | [] => ""
  | node :: rest => outlineAt indent level node ++ outlineAll indent level rest

end

/-- The node laid out over one line a node, with the given indent. -/
def outline (node : Node) (indent : String) : String :=
  node.outlineAt indent 0

/-- A node without a written form has no outline either. -/
def outline? (node : Node) (indent : String) : Option String :=
  if node.isWritable then some (node.outline indent) else none

end Node

def Outline.standardIndent : String := "  "

end RuleForest
