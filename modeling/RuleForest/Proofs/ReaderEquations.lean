import RuleForest.Proofs.StreamHistory
import RuleForest.Proofs.TraversalPartition

namespace RuleForest

namespace Stream

/-- What reads nodes, structures, lists and whole streams from a cursor on. -/
structure Readers where
  node : Int → Stream → Stream × Traced Node
  build : Shape → Int → Token → Stream → Stream × Traced Node
  list : Shape → Int → Slot → Stream → Traced (List Node)
  nodes : Int → Stream → Stream × Traced (List Node)

namespace Readers

/-- Reads the node at the cursor, and leaves a structure to its reader. -/
def nodeBody (f : Readers) (depth : Int) (s : Stream) : Stream × Traced Node :=
  match s.current with
  | .error fault => (s, .fail fault)
  | .ok t =>
    match t.kind with
    | .string => (s, .ofExcept ((StringLiteral.leaf t).map .leaf))
    | .openSquare => f.build .array depth t s
    | .function => f.build .call depth t s
    | _ => (s, pure (.token t))

/-- Collects the content of a structure, and leaves it to the reader of lists
as a stream of its own. -/
def buildBody (f : Readers) (o : Options) (shape : Shape) (depth : Int) (first : Token)
    (s : Stream) : Stream × Traced Node :=
  if o.maxDepth ≤ depth then (s, .fail (.blame (.tooDeep shape o.maxDepth) first))
  else
    match s.seekOpener shape o first with
    | (opened, .error fault) => (opened, .fail fault)
    | (opened, .ok ()) =>
      match opened.collect shape first 1 with
      | (closed, .error fault) => (closed, .fail fault)
      | (closed, .ok nested) =>
        (closed, shape.finish first (f.list shape (depth + 1) .first (ofList nested)))

/-- Reads one token or one element of a list, and goes on behind it. -/
def listBody (f : Readers) (o : Options) (shape : Shape) (depth : Int) (slot : Slot) (s : Stream) :
    Traced (List Node) :=
  if s.valid then
    match s.current with
    | .error fault => .fail fault
    | .ok t =>
      if o.ignores t.group then f.list shape depth slot s.next
      else if t.kind = .comma then
        if slot.isFilled then f.list shape depth (.after t) s.next
        else .fail (.blame .unexpectedComma t)
      else if !t.kind.startsElement then .fail (.blame (.unexpectedToken t.kind shape) t)
      else if slot.isFilled then .fail (.blame (.missingComma shape) t)
      else do
        let item ← (f.node depth s).2
        let items ← f.list shape depth .filled (f.node depth s).1.next
        pure (item :: items)
  else
    match slot with
    | .after comma => .fail (.blame (.trailingComma shape) comma)
    | .first | .filled => pure []

/-- Reads one node of a stream, and goes on behind it. -/
def nodesBody (f : Readers) (depth : Int) (s : Stream) : Stream × Traced (List Node) :=
  if s.valid then
    let reading := f.node depth s
    let others := f.nodes depth reading.1.next
    (if reading.2.succeeds then others.1 else reading.1, do
      let node ← reading.2
      let nodes ← others.2
      pure (node :: nodes))
  else (s, pure [])

/-- The readers do what the program says on every stream that steps can reach,
where the structures among the nodes are left to `inner`. -/
structure Runs (o : Options) (inner f : Readers) : Prop where
  node : ∀ depth tokens c, f.node depth (placed tokens c) = inner.nodeBody depth (placed tokens c)
  build : ∀ shape depth first tokens c,
    f.build shape depth first (placed tokens c) = f.buildBody o shape depth first (placed tokens c)
  list : ∀ shape depth slot tokens c,
    f.list shape depth slot (placed tokens c) = f.listBody o shape depth slot (placed tokens c)
  nodes : ∀ depth tokens c, f.nodes depth (placed tokens c) = f.nodesBody depth (placed tokens c)

/-- The readers give what the library computes from the tokens at once. -/
structure Agrees (o : Options) (f : Readers) : Prop where
  node : ∀ depth tokens c, f.node depth (placed tokens c) = (placed tokens c).readNode o depth
  build : ∀ shape depth first tokens c,
    f.build shape depth first (placed tokens c) = (placed tokens c).buildNode shape o depth first
  list : ∀ shape depth slot tokens c,
    f.list shape depth slot (placed tokens c) = elements shape o depth slot (tokens.drop c)
  nodes : ∀ depth tokens c,
    f.nodes depth (placed tokens c) = (placed tokens c).follow (forest o depth (tokens.drop c))

section Bodies

variable {o : Options} {f : Readers} {shape : Shape} {depth : Int} {slot : Slot}
  {first : Token} {tokens : List Token} {c : Nat} {s : Stream}

theorem nodeBody_eq (builds : ∀ nested t, s.current = .ok t → t.kind.shape? = some nested →
      f.build nested depth t s = s.buildNode nested o depth t) :
    f.nodeBody depth s = s.readNode o depth := by
  rw [nodeBody, readNode]
  cases here : s.current with
  | error fault => rfl
  | ok t =>
    have structured (nested : Shape) (begins : t.kind.shape? = some nested) :
        f.build nested depth t s = s.follow (read o depth t s.following) := by
      rw [builds nested t here begins, buildNode, read_of_shape begins]
    simp only
    cases kind : t.kind
    case string => rw [read_of_string kind]; rfl
    case openSquare => exact structured .array (by rw [kind]; rfl)
    case function => exact structured .call (by rw [kind]; rfl)
    all_goals rw [read_of_plain (by rw [Token.isComposite, kind]; rfl)]; rfl

theorem buildBody_eq (lists : depth < o.maxDepth → ∀ opened closed nested,
      (placed tokens c).seekOpener shape o first = (opened, .ok ()) →
      opened.collect shape first 1 = (closed, .ok nested) →
      f.list shape (depth + 1) .first (ofList nested) = elements shape o (depth + 1) .first nested) :
    f.buildBody o shape depth first (placed tokens c) =
      (placed tokens c).buildNode shape o depth first := by
  rw [← walkStructure_placed, buildBody, walkStructure]
  by_cases deep : o.maxDepth ≤ depth
  · rw [if_pos deep, if_pos deep]
  rw [if_neg deep, if_neg deep]
  rcases opens : (placed tokens c).seekOpener shape o first with ⟨opened, fault | _⟩
  · rfl
  simp only [walkContent]
  rcases collects : opened.collect shape first 1 with ⟨closed, fault | nested⟩
  · rfl
  have walked := @walkElements_placed nested nested 0 shape o (depth + 1) .first rfl
  have read := lists (Int.not_le.mp deep) opened closed nested opens collects
  simp only [read, ← walked]
  rfl

theorem listBody_eq (node : f.node depth (placed tokens c) = (placed tokens c).readNode o depth)
    (lists : c < tokens.length → ∀ slot later, c < later →
      f.list shape depth slot (placed tokens later) =
        elements shape o depth slot (tokens.drop later)) :
    f.listBody o shape depth slot (placed tokens c) =
      elements shape o depth slot (tokens.drop c) := by
  rw [← walkElements_placed shape o depth slot rfl, listBody.eq_def, walkElements.eq_def]
  cases behind : tokens.drop c with
  | nil =>
    have ended : ¬ (placed tokens c).valid = true := by simp [valid_placed_of_nil behind]
    refine (if_neg ended).trans (Eq.trans ?_ (dif_neg ended).symm)
    rfl
  | cons t rest =>
    have found := getElem?_of_cons behind
    have within : c < tokens.length := (List.getElem?_eq_some_iff.mp found).1
    have goesOn (slot : Slot) (later : Nat) (ahead : c < later) :
        f.list shape depth slot (placed tokens later) =
          (placed tokens later).walkElements shape o depth slot := by
      rw [lists within slot later ahead, walkElements_placed shape o depth slot rfl]
    rw [if_pos (valid_placed_of_cons behind), dif_pos (valid_placed_of_cons behind),
      current_placed_of_cons behind, node, readNode_placed found, next_placed]
    simp only [next_placed, goesOn _ (c + 1) (Nat.lt_succ_self c),
      goesOn _ (c + (RuleForest.read o depth t (tokens.drop (c + 1))).advances + 1) (by omega)]

theorem nodesBody_eq (node : f.node depth (placed tokens c) = (placed tokens c).readNode o depth)
    (others : ∀ t rest, tokens.drop c = t :: rest →
      (RuleForest.read o depth t rest).outcome.succeeds = true →
      f.nodes depth (placed tokens (c + 1 + (RuleForest.read o depth t rest).advances)) =
        (placed tokens (c + 1 + (RuleForest.read o depth t rest).advances)).follow
          (forest o depth (rest.drop (RuleForest.read o depth t rest).advances))) :
    f.nodesBody depth (placed tokens c) =
      (placed tokens c).follow (forest o depth (tokens.drop c)) := by
  rw [nodesBody, follow, advance_placed]
  cases behind : tokens.drop c with
  | nil =>
    rw [if_neg (by simp [valid_placed_of_nil behind]), forest]
    rfl
  | cons t rest =>
    have found := getElem?_of_cons behind
    have reading := readNode_placed found o depth
    rw [drop_of_cons behind 0, List.drop_zero, ← node] at reading
    rw [if_pos (valid_placed_of_cons behind), reading, forest]
    simp only [next_placed]
    cases run : (RuleForest.read o depth t rest).outcome.result with
    | error fault =>
      have failed : (RuleForest.read o depth t rest).outcome.succeeds = false := by
        rw [Traced.succeeds, run]
      rw [failed, Traced.bind_of_error run, Traced.bind_of_error run]
      rfl
    | ok item =>
      have done := Traced.succeeds_iff.mpr ⟨item, run⟩
      have later := others t rest behind done
      rw [follow, advance_placed] at later
      rw [Nat.add_right_comm, later, done]
      simp only [if_true, Nat.add_assoc, Nat.add_left_comm]

end Bodies

theorem Agrees.runs {o : Options} {f : Readers} (agrees : f.Agrees o) : Runs o f f where
  node depth tokens c := by
    rw [agrees.node]
    exact (nodeBody_eq fun nested t _ _ => agrees.build nested depth t tokens c).symm
  build shape depth first tokens c := by
    rw [agrees.build]
    exact (buildBody_eq fun _ _ _ nested _ _ =>
      agrees.list shape (depth + 1) .first nested 0).symm
  list shape depth slot tokens c := by
    rw [agrees.list]
    exact (listBody_eq (agrees.node depth tokens c) fun _ slot later _ =>
      agrees.list shape depth slot tokens later).symm
  nodes depth tokens c := by
    rw [agrees.nodes]
    refine (nodesBody_eq (agrees.node depth tokens c) fun t rest behind _ => ?_).symm
    rw [agrees.nodes, drop_of_cons behind]

end Readers

end Stream

end RuleForest
