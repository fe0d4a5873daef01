import RuleForest.Proofs.CursorPlace
import RuleForest.Proofs.ReadingSteps

namespace RuleForest

namespace Stream

/-- How many steps the cursor can still take. -/
def left (s : Stream) : Nat :=
  (s.tokens.length - s.index).toNat

theorem left_next_lt {s : Stream} (inside : s.index < s.tokens.length) : s.next.left < s.left := by
  rw [left, left, tokens_next, next, if_pos inside]
  simp only
  omega

theorem left_next_le (s : Stream) : s.next.left ≤ s.left := by
  by_cases inside : s.index < s.tokens.length
  · exact Nat.le_of_lt (left_next_lt inside)
  · have stays : s.next = s := if_neg inside
    exact Nat.le_of_eq (congrArg left stays)

theorem left_advance_le (s : Stream) (steps : Nat) : (s.advance steps).left ≤ s.left := by
  induction steps generalizing s with
  | zero => exact Nat.le_refl _
  | succ steps ih => exact Nat.le_trans (ih s.next) s.left_next_le

theorem left_advance_next_lt {s : Stream} (inside : s.index < s.tokens.length) (steps : Nat) :
    (s.advance steps).next.left < s.left := by
  rw [← advance_succ, advance]
  exact Nat.lt_of_le_of_lt (s.next.left_advance_le steps) (left_next_lt inside)

theorem index_lt_of_valid {s : Stream} (valid : s.valid = true) : s.index < s.tokens.length := by
  simp only [Stream.valid, Bool.and_eq_true, decide_eq_true_eq] at valid
  exact valid.2

/-- A cursor that stands on a token after a step has moved. -/
theorem left_lt_of_next_valid {s : Stream} (valid : s.next.valid = true) : s.next.left < s.left := by
  refine left_next_lt ?_
  have after := index_lt_of_valid valid
  rw [tokens_next, next] at after
  split at after
  · assumption
  · exact after

theorem readNode_moves (s : Stream) (o : Options) (depth : Int) :
    ∃ steps, (s.readNode o depth).1 = s.advance steps := by
  unfold readNode
  split
  · exact ⟨_, rfl⟩
  · exact ⟨0, rfl⟩

/-- Looks for the opening bracket behind the name of a call, from token to
token. Each look at a token needs the cursor on one. -/
def seekParen (o : Options) (first : Token) (s : Stream) : Stream × Except Fault Unit :=
  if _valid : s.next.valid then
    match s.next.current with
    | .error fault => (s.next, .error fault)
    | .ok t =>
      if o.ignores t.group then s.next.seekParen o first
      else if t.kind = .openParen then (s.next, .ok ())
      else (s.next, .error (.missingParen first t))
  else (s.next, .error (.blame (.unterminated .call) first))
termination_by s.left
decreasing_by exact left_lt_of_next_valid _valid

/-- Collects the tokens up to the closer, with a count of open brackets. -/
def collect (shape : Shape) (first : Token) (count : Nat) (s : Stream) :
    Stream × Except Fault (List Token) :=
  if _valid : s.next.valid then
    match s.next.current with
    | .error fault => (s.next, .error fault)
    | .ok t =>
      if t.kind = shape.opener then
        let more := s.next.collect shape first (count + 1)
        (more.1, more.2.map (t :: ·))
      else if t.kind = shape.closer then
        if count = 1 then (s.next, .ok [])
        else
          let more := s.next.collect shape first (count - 1)
          (more.1, more.2.map (t :: ·))
      else
        let more := s.next.collect shape first count
        (more.1, more.2.map (t :: ·))
  else (s.next, .error (.blame (.unterminated shape) first))
termination_by s.left
decreasing_by all_goals exact left_lt_of_next_valid _valid

/-- Reads a list on a stream of its own, as long as the cursor is on a token.
An element is read at the cursor, which then takes a step. -/
def walkElements (shape : Shape) (o : Options) (depth : Int) (slot : Slot) (s : Stream) :
    Traced (List Node) :=
  if _valid : s.valid then
    match s.current with
    | .error fault => .fail fault
    | .ok t =>
      if o.ignores t.group then s.next.walkElements shape o depth slot
      else if t.kind = .comma then
        if slot.isFilled then s.next.walkElements shape o depth (.after t)
        else .fail (.blame .unexpectedComma t)
      else if !t.kind.startsElement then .fail (.blame (.unexpectedToken t.kind shape) t)
      else if slot.isFilled then .fail (.blame (.missingComma shape) t)
      else do
        let item ← (s.readNode o depth).2
        let items ← (s.readNode o depth).1.next.walkElements shape o depth .filled
        pure (item :: items)
  else
    match slot with
    | .after comma => .fail (.blame (.trailingComma shape) comma)
    | .first | .filled => pure []
termination_by s.left
decreasing_by
  · exact left_next_lt (index_lt_of_valid _valid)
  · exact left_next_lt (index_lt_of_valid _valid)
  · obtain ⟨steps, moved⟩ := s.readNode_moves o depth
    rw [moved]
    exact left_advance_next_lt (index_lt_of_valid _valid) steps

/-- Moves the cursor to the opening bracket. An array begins on its own. -/
def seekOpener (shape : Shape) (o : Options) (first : Token) (s : Stream) :
    Stream × Except Fault Unit :=
  match shape with
  | .array => (s, .ok ())
  | .call => s.seekParen o first

/-- Collects the content of a structure, from its opening bracket on, and
then reads it as a stream of its own. -/
def walkContent (shape : Shape) (o : Options) (depth : Int) (first : Token) (s : Stream) :
    Stream × Traced Node :=
  match s.collect shape first 1 with
  | (closed, .error fault) => (closed, .fail fault)
  | (closed, .ok inner) =>
    (closed, shape.finish first ((ofList inner).walkElements shape o (depth + 1) .first))

/-- Reads a structure step by step, the limit and the opening bracket first. -/
def walkStructure (shape : Shape) (o : Options) (depth : Int) (first : Token) (s : Stream) :
    Stream × Traced Node :=
  if o.maxDepth ≤ depth then (s, .fail (.blame (.tooDeep shape o.maxDepth) first))
  else
    match s.seekOpener shape o first with
    | (opened, .error fault) => (opened, .fail fault)
    | (opened, .ok ()) => opened.walkContent shape o depth first

/-- Reads node after node, as long as the cursor is on a token. After each
one the cursor takes a step. -/
def walkNodes (o : Options) (depth : Int) (s : Stream) : Stream × Traced (List Node) :=
  if _valid : s.valid then
    let reading := s.readNode o depth
    let others := reading.1.next.walkNodes o depth
    (if reading.2.succeeds then others.1 else reading.1, do
      let node ← reading.2
      let nodes ← others.2
      pure (node :: nodes))
  else (s, pure [])
termination_by s.left
decreasing_by
  obtain ⟨steps, moved⟩ := s.readNode_moves o depth
  rw [moved]
  exact left_advance_next_lt (index_lt_of_valid _valid) steps

section Refinement

variable {tokens rest : List Token} {c : Nat} {t : Token}

theorem valid_placed_of_nil (behind : tokens.drop c = []) :
    (placed tokens c).valid = false := by
  have long := List.drop_eq_nil_iff.mp behind
  simp only [Stream.valid, tokens_placed, index_placed, Bool.and_eq_false_iff,
    decide_eq_false_iff_not]
  split
  · left
    decide
  · right
    omega

theorem valid_placed_of_cons (behind : tokens.drop c = t :: rest) :
    (placed tokens c).valid = true := by
  have length := congrArg List.length behind
  rw [List.length_drop, List.length_cons] at length
  have index := @index_placed_of_le tokens c (by omega) (by omega)
  simp only [Stream.valid, tokens_placed, index, Bool.and_eq_true, decide_eq_true_eq]
  omega

theorem getElem?_of_cons (behind : tokens.drop c = t :: rest) : tokens[c]? = some t := by
  rw [← List.head?_drop, behind]
  rfl

theorem current_placed_of_cons (behind : tokens.drop c = t :: rest) :
    (placed tokens c).current = .ok t :=
  current_placed (getElem?_of_cons behind)

theorem drop_of_cons (behind : tokens.drop c = t :: rest) (n : Nat) :
    tokens.drop (c + 1 + n) = rest.drop n := by
  rw [Nat.add_assoc, ← List.drop_drop, behind, Nat.add_comm, List.drop_succ_cons]

/-- The search for the opening bracket on a stream finds what the tokens
behind the cursor say, and no step of it needs a token that is not there. -/
theorem seekParen_placed (o : Options) (first : Token) (behind : tokens.drop (c + 1) = rest) :
    (placed tokens c).seekParen o first =
      match Shape.call.lead o first rest with
      | .ok n => (placed tokens (c + n), .ok ())
      | .error stop => (placed tokens (c + stop.advances), .error stop.fault) := by
  induction rest generalizing c with
  | nil =>
    rw [seekParen, next_placed, dif_neg (by simp [valid_placed_of_nil behind]),
      Shape.lead_of_skips o.skips_nil]
    rfl
  | cons t rest ih =>
    rw [seekParen, next_placed, dif_pos (valid_placed_of_cons behind),
      current_placed_of_cons behind]
    simp only
    by_cases ignored : o.ignores t.group = true
    · rw [if_pos ignored, ih (drop_of_cons behind 0), Shape.lead_skip ignored]
      cases Shape.call.lead o first rest with
      | ok n => simp only [Nat.add_assoc, Nat.add_comm 1]
      | error stop => simp only [Nat.add_assoc, Nat.add_comm 1]
    · have lead := @Shape.lead_call o first t [] rest o.skips_nil (Bool.eq_false_iff.mpr ignored)
      rw [List.nil_append] at lead
      rw [if_neg ignored, lead]
      by_cases opens : t.kind = .openParen
      · rw [if_pos opens, if_pos opens]
        rfl
      · rw [if_neg opens, if_neg opens]
        rfl

/-- Collecting on a stream takes the tokens that the scan of a list takes. -/
theorem collect_placed (shape : Shape) (first : Token) {level : Nat}
    (behind : tokens.drop (c + 1) = rest) :
    (placed tokens c).collect shape first (level + 1) =
      match shape.enclosed level rest with
      | some inner => (placed tokens (c + (inner.length + 1)), .ok inner)
      | none =>
        (placed tokens (c + (rest.length + 1)), .error (.blame (.unterminated shape) first)) := by
  induction rest generalizing c level with
  | nil =>
    rw [collect, next_placed, dif_neg (by simp [valid_placed_of_nil behind])]
    rfl
  | cons t rest ih =>
    have later := drop_of_cons behind 0
    have goesOn (next : Nat) :
        (((placed tokens (c + 1)).collect shape first (next + 1)).1,
          ((placed tokens (c + 1)).collect shape first (next + 1)).2.map (t :: ·)) =
        match (shape.enclosed next rest).map (t :: ·) with
        | some inner => (placed tokens (c + (inner.length + 1)), .ok inner)
        | none => (placed tokens (c + ((t :: rest).length + 1)),
            .error (.blame (.unterminated shape) first)) := by
      rw [ih later]
      cases shape.enclosed next rest with
      | none => simp [Except.map, Nat.add_comm, Nat.add_left_comm]
      | some inner => simp [Except.map, Nat.add_comm, Nat.add_left_comm]
    rw [collect, next_placed, dif_pos (valid_placed_of_cons behind),
      current_placed_of_cons behind, Shape.enclosed]
    simp only
    by_cases opens : t.kind = shape.opener
    · rw [if_pos opens, if_pos opens]
      exact goesOn (level + 1)
    rw [if_neg opens, if_neg opens]
    by_cases closes : t.kind = shape.closer
    · rw [if_pos closes, if_pos closes]
      cases level with
      | zero => simp
      | succ level => simpa using goesOn level
    · rw [if_neg closes, if_neg closes]
      exact goesOn level

/-- Reading a list on its own stream is reading the list of its tokens. -/
theorem walkElements_placed (shape : Shape) (o : Options) (depth : Int) (slot : Slot)
    (behind : tokens.drop c = rest) :
    (placed tokens c).walkElements shape o depth slot = elements shape o depth slot rest := by
  induction shape, depth, slot, rest using elements_induction o generalizing c with
  | nil shape depth slot =>
    rw [walkElements.eq_def, dif_neg (by simp [valid_placed_of_nil behind])]
    cases slot with
    | after comma => rw [elements_nil_after]
    | first => rw [elements_nil (by simp)]
    | filled => rw [elements_nil (by simp)]
  | skip shape depth slot t rest ignored ih =>
    rw [walkElements.eq_def, dif_pos (valid_placed_of_cons behind), current_placed_of_cons behind,
      elements_skip ignored, ← ih (drop_of_cons behind 0), next_placed]
    exact if_pos ignored
  | comma shape depth slot t rest seen comma ih =>
    rw [walkElements.eq_def, dif_pos (valid_placed_of_cons behind), current_placed_of_cons behind,
      elements_comma seen comma, ← ih (drop_of_cons behind 0), next_placed]
    simp only [seen, comma, Bool.false_eq_true, if_false, if_true]
  | unexpected shape depth slot t rest seen comma starts =>
    rw [walkElements.eq_def, dif_pos (valid_placed_of_cons behind), current_placed_of_cons behind,
      elements_unexpected seen comma starts]
    simp only [seen, comma, starts, Bool.false_eq_true, if_false, Bool.not_false, if_true]
  | missing shape depth t rest seen comma starts =>
    rw [walkElements.eq_def, dif_pos (valid_placed_of_cons behind), current_placed_of_cons behind,
      elements_missing seen comma starts]
    simp only [seen, comma, starts, Slot.isFilled, Bool.false_eq_true, if_false, Bool.not_true,
      if_true]
  | item shape depth slot t rest seen comma starts free _ ih =>
    have found := getElem?_of_cons behind
    have after := drop_of_cons behind
    rw [walkElements.eq_def, dif_pos (valid_placed_of_cons behind), current_placed_of_cons behind,
      elements_item seen comma starts free, readNode_placed found, after 0]
    simp only [seen, comma, starts, free, Bool.false_eq_true, if_false, Bool.not_true,
      List.drop_zero, next_placed]
    rw [Nat.add_right_comm, ih (after _)]

theorem seekOpener_of_lead {o : Options} {shape : Shape} {lead content : List Token}
    (leads : Lead o shape lead) (first : Token) (whole : tokens.drop (c + 1) = lead ++ content) :
    (placed tokens c).seekOpener shape o first = (placed tokens (c + lead.length), .ok ()) := by
  cases leads with
  | array => rfl
  | call skips opens seen =>
    rw [seekOpener, seekParen_placed o first whole,
      Shape.lead_of_lead (.call skips opens seen)]

theorem walkContent_placed (shape : Shape) (o : Options) (depth : Int) (first : Token)
    (behind : tokens.drop (c + 1) = rest) :
    (placed tokens c).walkContent shape o depth first =
      match shape.enclosed 0 rest with
      | some inner => (placed tokens (c + (inner.length + 1)),
          shape.finish first (elements shape o (depth + 1) .first inner))
      | none => (placed tokens (c + (rest.length + 1)),
          .fail (.blame (.unterminated shape) first)) := by
  have collected := @collect_placed tokens rest c shape first 0 behind
  rw [Nat.zero_add] at collected
  rw [walkContent, collected]
  cases shape.enclosed 0 rest with
  | none => rfl
  | some inner =>
    have walked := @walkElements_placed inner inner 0 shape o (depth + 1) .first rfl
    simp only
    rw [← walked]
    rfl

/-- The steps of reading a structure leave the cursor, the events and the
result that are computed from the tokens behind the cursor at once. -/
theorem walkStructure_placed (shape : Shape) (o : Options) (depth : Int) (first : Token)
    (tokens : List Token) (c : Nat) :
    (placed tokens c).walkStructure shape o depth first =
      (placed tokens c).buildNode shape o depth first := by
  rw [buildNode_placed, walkStructure]
  by_cases deep : o.maxDepth ≤ depth
  · rw [if_pos deep, build_of_error (Shape.locate_of_deep deep ..)]
    rfl
  have shallow : depth < o.maxDepth := Int.not_le.mp deep
  rw [if_neg deep]
  rcases shape.lead_cases o (tokens.drop (c + 1)) with ⟨lead, content, leads, whole⟩ |
    ⟨rfl, skips⟩ | ⟨rfl, gap, t, after, whole, skips, seen, other⟩
  · have behind : tokens.drop (c + lead.length + 1) = content := by
      rw [Nat.add_right_comm, ← List.drop_drop, whole, List.drop_left]
    have located := Shape.locate_of_lead shallow leads first content
    rw [seekOpener_of_lead leads first whole, whole]
    simp only
    rw [walkContent_placed shape o depth first behind]
    cases enclosing : shape.enclosed 0 content with
    | none =>
      rw [enclosing] at located
      rw [build_of_error located]
      simp only [Shape.unterminated, List.length_append, Nat.add_assoc]
    | some inner =>
      rw [enclosing] at located
      rw [build_of_ok located]
      simp only [Extent.advances, Nat.add_assoc]
  · rw [seekOpener, seekParen_placed o first rfl, Shape.lead_of_skips skips,
      build_of_error (Shape.locate_of_skips shallow skips first)]
  · rw [seekOpener, seekParen_placed o first whole, Shape.lead_call skips seen, if_neg other, whole,
      build_of_error (Shape.locate_of_other shallow skips seen other first)]

/-- Reading node after node on a stream is reading the forest of the tokens
from the cursor on. -/
theorem walkNodes_placed (o : Options) (depth : Int) (behind : tokens.drop c = rest) :
    (placed tokens c).walkNodes o depth =
      (placed tokens (c + (forest o depth rest).advances), (forest o depth rest).outcome) := by
  induction rest using forest_induction o depth generalizing c with
  | nil =>
    rw [walkNodes, dif_neg (by simp [valid_placed_of_nil behind]), forest]
    rfl
  | node t rest ih =>
    have found := getElem?_of_cons behind
    have others := ih (drop_of_cons behind (read o depth t rest).advances)
    rw [walkNodes, dif_pos (valid_placed_of_cons behind), readNode_placed found,
      drop_of_cons behind 0, forest]
    simp only [List.drop_zero, next_placed]
    rw [Nat.add_right_comm, others]
    cases (read o depth t rest).outcome.succeeds with
    | false => rfl
    | true => simp only [if_true, Nat.add_assoc, Nat.add_left_comm]

end Refinement

end Stream
end RuleForest
