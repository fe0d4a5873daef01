import RuleForest.Enclosure
import RuleForest.Stream
import RuleForest.StringLiteral

namespace RuleForest

/-- The outcome of reading at the cursor, and how far that moves the cursor. -/
structure Reading (α : Type) where
  advances : Nat
  outcome : Traced α

/-- What a list of elements has just read: nothing yet, an element, or a
comma that another element has to follow. -/
inductive Slot where
  | first
  | filled
  | after (comma : Token)
deriving DecidableEq, Repr

def Slot.isFilled : Slot → Bool
  | .filled => true
  | _ => false

namespace Shape

/-- The leaf for the name of a call. -/
def nameLeaf (first : Token) : Leaf where
  label := Leaf.nameLabel
  text := first.value.shown
  start := some first.position
  line := some first.line

/-- The finished structure that begins at `first`. -/
def node (shape : Shape) (first : Token) (items : List Node) : Node :=
  match shape with
  | .array => .array items
  | .call => .call (nameLeaf first) items

def event (shape : Shape) (first : Token) (count : Nat) : Event :=
  match shape with
  | .array => .array first.position count
  | .call => .call first.value.shown first.position count

/-- Whether the structure that begins at `first` can be named. An array has
no name, and that of a call has to be written. -/
def isNamed (shape : Shape) (first : Token) : Bool :=
  match shape with
  | .array => true
  | .call => first.value.isWritable

/-- Names and records a structure once all of its elements are read. -/
def finish (shape : Shape) (first : Token) (items : Traced (List Node)) : Traced Node := do
  let items ← items
  if shape.isNamed first then do
    Traced.emit (shape.event first items.length)
    pure (shape.node first items)
  else .fail .unwritable

end Shape

mutual

/-- Reads the node at the cursor, which stands on `t`. Only structures move
the cursor, and a finished one leaves it on its closer. -/
def read (o : Options) (depth : Int) (t : Token) (rest : List Token) : Reading Node :=
  match t.kind with
  | .string => ⟨0, .ofExcept ((StringLiteral.leaf t).map .leaf)⟩
  | .openSquare => build .array o depth t rest
  | .function => build .call o depth t rest
  | _ => ⟨0, pure (.token t)⟩
termination_by (rest.length, 2)

/-- Reads the structure that begins at `first`, whose extent is located
before any of its elements is read. -/
def build (shape : Shape) (o : Options) (depth : Int) (first : Token) (rest : List Token) :
    Reading Node :=
  match _found : shape.locate o depth first rest with
  | .error stop => ⟨stop.advances, .fail stop.fault⟩
  | .ok extent =>
    ⟨extent.advances, shape.finish first (elements shape o (depth + 1) .first extent.inner)⟩
termination_by (rest.length, 1)
decreasing_by
  exact Prod.Lex.left _ _ (Shape.length_inner_locate ‹_›)

/-- Reads elements and commas in turn, up to the end of the tokens. -/
def elements (shape : Shape) (o : Options) (depth : Int) (slot : Slot) :
    List Token → Traced (List Node)
  | [] =>
    match slot with
    | .after comma => .fail (.blame (.trailingComma shape) comma)
    | .first | .filled => pure []
  | t :: rest =>
    if o.ignores t.group then elements shape o depth slot rest
    else if t.kind = .comma then
      if slot.isFilled then elements shape o depth (.after t) rest
      else .fail (.blame .unexpectedComma t)
    else if !t.kind.startsElement then .fail (.blame (.unexpectedToken t.kind shape) t)
    else if slot.isFilled then .fail (.blame (.missingComma shape) t)
    else do
      let reading := read o depth t rest
      let item ← reading.outcome
      let items ← elements shape o depth .filled (rest.drop reading.advances)
      pure (item :: items)
termination_by tokens => (tokens.length, 0)
decreasing_by
  all_goals simp only [List.length_cons, List.length_drop]
  · exact Prod.Lex.left _ _ (by omega)
  · exact Prod.Lex.left _ _ (by omega)
  · exact Prod.Lex.left _ _ (by omega)
  · exact Prod.Lex.left _ _ (by omega)

end

theorem build_eq (shape : Shape) (o : Options) (depth : Int) (first : Token) (rest : List Token) :
    build shape o depth first rest =
      match shape.locate o depth first rest with
      | .error stop => ⟨stop.advances, .fail stop.fault⟩
      | .ok extent =>
        ⟨extent.advances,
          shape.finish first (elements shape o (depth + 1) .first extent.inner)⟩ := by
  rw [build]
  split <;> rename_i found <;> rw [found]

theorem build_of_error {shape : Shape} {o : Options} {depth : Int} {first : Token}
    {rest : List Token} {stop : Stop} (missed : shape.locate o depth first rest = .error stop) :
    build shape o depth first rest = ⟨stop.advances, .fail stop.fault⟩ := by
  rw [build_eq, missed]

theorem build_of_ok {shape : Shape} {o : Options} {depth : Int} {first : Token}
    {rest : List Token} {extent : Extent} (found : shape.locate o depth first rest = .ok extent) :
    build shape o depth first rest =
      ⟨extent.advances,
        shape.finish first (elements shape o (depth + 1) .first extent.inner)⟩ := by
  rw [build_eq, found]

/-- Reads the nodes of a whole token list from left to right. After each one
the cursor takes the step to the next. -/
def forest (o : Options) (depth : Int) : List Token → Reading (List Node)
  | [] => ⟨0, pure []⟩
  | t :: rest =>
    let reading := read o depth t rest
    let others := forest o depth (rest.drop reading.advances)
    { advances :=
        reading.advances + if reading.outcome.succeeds then 1 + others.advances else 0
      outcome := do
        let node ← reading.outcome
        let nodes ← others.outcome
        pure (node :: nodes) }
termination_by tokens => tokens.length
decreasing_by
  simp only [List.length_drop, List.length_cons]
  omega

namespace Stream

/-- Takes the outcome of reading at the cursor, and moves the cursor as far. -/
def follow {α : Type} (s : Stream) (reading : Reading α) : Stream × Traced α :=
  (s.advance reading.advances, reading.outcome)

/-- Reads the node at the cursor. -/
def readNode (s : Stream) (o : Options) (depth : Int) : Stream × Traced Node :=
  match s.current with
  | .ok t => s.follow (read o depth t s.following)
  | .error fault => (s, .fail fault)

/-- Reads the structure that begins at the given token, whose content follows
the cursor. -/
def buildNode (s : Stream) (shape : Shape) (o : Options) (depth : Int) (first : Token) :
    Stream × Traced Node :=
  s.follow (build shape o depth first s.following)

/-- Reads the whole stream from its start, whatever the cursor was on. -/
def readForest (s : Stream) (o : Options) (depth : Int) : Stream × Traced (List Node) :=
  s.rewind.follow (forest o depth s.tokens)

end Stream

end RuleForest
