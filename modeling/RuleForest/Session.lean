import RuleForest.Folding
import RuleForest.Outline
import RuleForest.Reading

namespace RuleForest

/-- What one reader of a stream brings along. -/
structure Frame where
  bindings : Bindings := fun _ => none
  options : Options := .standard
  depth : Int := 0

/-- Readers that share one stream. The newest one acts on it, and the last
one stays. -/
structure Session where
  stream : Stream
  functions : Functions
  frame : Frame
  older : List Frame := []

namespace Session

inductive Step where
  | new (frame : Frame)
  | drop
  | rewind
  | next
  | valid
  | key
  | current
  | nodes
  | get (name : String)
  | has (name : String)
  | value
  | values
  | outline
  | same

inductive Answer where
  | nothing
  | flag (b : Bool)
  | index (n : Int)
  | node (node : Node)
  | nodes (nodes : List Node)
  | value (v : Value)
  | values (vs : List Value)
  | text (s : String)

/-- A new reader starts at the beginning of the stream. -/
def start (stream : Stream) (functions : Functions) (frame : Frame) : Session :=
  { stream := stream.rewind, functions, frame }

def scope (session : Session) : Scope :=
  ⟨session.frame.bindings, session.functions⟩

def withStream (session : Session) (stream : Stream) : Session :=
  { session with stream }

def push (session : Session) (frame : Frame) : Session :=
  { session with
    stream := session.stream.rewind
    frame
    older := session.frame :: session.older }

def pop (session : Session) : Session :=
  match session.older with
  | [] => session
  | frame :: older => { session with frame, older }

def readNode (session : Session) : Stream × Traced Node :=
  session.stream.readNode session.frame.options session.frame.depth

def readForest (session : Session) : Stream × Traced (List Node) :=
  session.stream.readForest session.frame.options session.frame.depth

/-- Folds the node at the cursor. -/
def value (session : Session) : Stream × Traced Value :=
  let (stream, node) := session.readNode
  (stream, do (← node).fold session.scope)

/-- Folds the whole stream. Every node is read before any is folded. -/
def values (session : Session) : Stream × Traced (List Value) :=
  let (stream, nodes) := session.readForest
  (stream, do foldForest session.frame.options session.scope (← nodes))

/-- Whether reading the whole stream twice gives the same nodes. -/
def same (session : Session) : Stream × Traced Bool :=
  let (between, first) := session.readForest
  let (stream, second) := (session.withStream between).readForest
  (stream, do
    let firstNodes ← first
    let secondNodes ← second
    return firstNodes = secondNodes)

/-- Does one step. A fault ends the step but not the session. -/
def step (session : Session) : Step → Session × Traced Answer
  | .new frame => (session.push frame, pure .nothing)
  | .drop => (session.pop, pure .nothing)
  | .rewind => (session.withStream session.stream.rewind, pure .nothing)
  | .next => (session.withStream session.stream.next, pure .nothing)
  | .valid => (session, pure (.flag session.stream.valid))
  | .key => (session, .ofExcept (session.stream.key.map .index))
  | .current =>
    let (stream, node) := session.readNode
    (session.withStream stream, .node <$> node)
  | .nodes =>
    let (stream, nodes) := session.readForest
    (session.withStream stream, .nodes <$> nodes)
  | .get name => (session, .value <$> session.scope.lookup name)
  | .has name => (session, pure (.flag (session.frame.bindings name).isSome))
  | .value =>
    let (stream, v) := session.value
    (session.withStream stream, .value <$> v)
  | .values =>
    let (stream, vs) := session.values
    (session.withStream stream, .values <$> vs)
  | .outline =>
    let (stream, node) := session.readNode
    (session.withStream stream, do
      match (← node).outline? Outline.standardIndent with
      | some text => pure (.text text)
      | none => .fail .unwritable)
  | .same =>
    let (stream, same) := session.same
    (session.withStream stream, .flag <$> same)

/-- Does steps one after the other, each on the stream that the last one left. -/
def run (session : Session) : List Step → List (Session × Traced Answer)
  | [] => []
  | step :: rest =>
    let done := session.step step
    done :: done.1.run rest

end Session

end RuleForest
