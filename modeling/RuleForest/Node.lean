import RuleForest.Agreement
import RuleForest.Shape
import RuleForest.ValueText

namespace RuleForest

/-- A token of a rule. Its place is an offset and a line of the rule's text,
and these are always short enough to be written. -/
structure Token where
  kind : Kind
  value : Value
  position : Int := 0
  line : Int := 1
deriving DecidableEq, Repr, Inhabited

namespace Token

def group (t : Token) : Group :=
  t.kind.group

def isComposite (t : Token) : Bool :=
  t.kind.isComposite

def written (t : Token) : String :=
  "Tok(" ++ t.kind.name ++ ", " ++ t.value.written ++ ", @" ++ t.position.repr ++ ")"

def written? (t : Token) : Option String :=
  if t.value.isWritable then some t.written else none

/-- Tokens agree in kind and place, and their values agree. -/
def agrees (a b : Token) : Bool :=
  a.kind = b.kind && a.value.agrees b.value && a.position = b.position && a.line = b.line

end Token

/-- A leaf made from a token: the text of a literal or the name of a call,
with the places it was read from where these are known. -/
structure Leaf where
  label : String
  text : String
  start : Option Int := none
  line : Option Int := none
  stop : Option Int := none
deriving DecidableEq, Repr, Inhabited

def Leaf.stringLabel : String := "STRING"

def Leaf.nameLabel : String := "NAME"

/-- A node of the forest: a token that stands for itself, a leaf, or a
labelled tree. -/
inductive Node where
  | token (t : Token)
  | leaf (l : Leaf)
  | tree (label : String) (children : List Node)
deriving Repr, Inhabited

namespace Node

mutual

def decEq : (a b : Node) → Decidable (a = b)
  | .token a, .token b =>
    if same : a = b then isTrue (congrArg Node.token same)
    else isFalse fun equal => same (Node.token.inj equal)
  | .leaf a, .leaf b =>
    if same : a = b then isTrue (congrArg Node.leaf same)
    else isFalse fun equal => same (Node.leaf.inj equal)
  | .tree a as, .tree b bs =>
    if same : a = b then
      match decEqs as bs with
      | isTrue children => isTrue (congr (congrArg Node.tree same) children)
      | isFalse differ => isFalse fun equal => differ (Node.tree.inj equal).2
    else isFalse fun equal => same (Node.tree.inj equal).1
  | .token _, .leaf _ | .token _, .tree _ _ | .leaf _, .token _ | .leaf _, .tree _ _
  | .tree _ _, .token _ | .tree _ _, .leaf _ => isFalse nofun

def decEqs : (as bs : List Node) → Decidable (as = bs)
  | [], [] => isTrue rfl
  | [], _ :: _ => isFalse nofun
  | _ :: _, [] => isFalse nofun
  | a :: as, b :: bs =>
    match decEq a b, decEqs as bs with
    | isTrue same, isTrue rest => isTrue (congr (congrArg List.cons same) rest)
    | isFalse differ, _ => isFalse fun equal => differ (List.cons.inj equal).1
    | _, isFalse differ => isFalse fun equal => differ (List.cons.inj equal).2

end

instance : DecidableEq Node := decEq

def argsLabel : String := "args"

def array (items : List Node) : Node :=
  .tree Shape.array.label items

def call (name : Leaf) (args : List Node) : Node :=
  .tree Shape.call.label [.leaf name, .tree argsLabel args]

mutual

/-- Whether a node has a written form, for which the values of its tokens
need theirs. -/
def isWritable : Node → Bool
  | .token t => t.value.isWritable
  | .leaf _ => true
  | .tree _ children => areWritable children

def areWritable : List Node → Bool
  | [] => true
  | child :: rest => child.isWritable && areWritable rest

end

mutual

/-- The text of a node on one line. -/
def written : Node → String
  | .token t => t.written
  | .leaf l => "Token(" ++ quoted l.label ++ ", " ++ quoted l.text ++ ")"
  | .tree label children =>
    "Tree(" ++ quoted label ++ ", [" ++ ", ".intercalate (writtenAll children) ++ "])"

def writtenAll : List Node → List String
  | [] => []
  | child :: rest => child.written :: writtenAll rest

end

/-- The text of a node that serves as the name of a call. -/
def shown : Node → String
  | .leaf l => l.text
  | node => node.written

/-- The name that a node gives to a call, if it has a written form. -/
def shown? (node : Node) : Option String :=
  if node.isWritable then some node.shown else none

@[simp] theorem shown?_leaf (l : Leaf) : (leaf l).shown? = some l.text := rfl

mutual

/-- Tokens agree as tokens do, leaves in label and text, trees in label and
children. Nodes of different forms never agree. -/
def agrees : Node → Node → Bool
  | .token a, .token b => a.agrees b
  | .leaf a, .leaf b => a.label = b.label && a.text = b.text
  | .tree a as, .tree b bs => a = b && agreesAll as bs
  | _, _ => false

def agreesAll : List Node → List Node → Bool
  | [], [] => true
  | a :: as, b :: bs => agrees a b && agreesAll as bs
  | _, _ => false

end

def isTree : Node → Bool
  | .tree _ _ => true
  | _ => false

def isToken : Node → Bool
  | .token _ => true
  | _ => false

def isString : Node → Bool
  | .leaf l => l.label = Leaf.stringLabel
  | _ => false

def label? : Node → Option String
  | .tree label _ => some label
  | _ => none

/-- Whether the node is a tree labelled as this shape. -/
def hasShape (node : Node) (shape : Shape) : Bool :=
  node.label? = some shape.label

end Node

end RuleForest
