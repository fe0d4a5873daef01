import RuleForest.Fault

namespace RuleForest

/-- A token sequence with one forward cursor, which lies between one before
the first token and one after the last. -/
structure Stream where
  tokens : List Token
  index : Int
deriving DecidableEq, Repr

namespace Stream

/-- The cursor on the first token, or before the start if there is none. -/
def rewind (s : Stream) : Stream :=
  { s with index := if s.tokens.isEmpty then -1 else 0 }

def ofList (tokens : List Token) : Stream :=
  Stream.rewind ⟨tokens, -1⟩

def next (s : Stream) : Stream :=
  if s.index < s.tokens.length then { s with index := s.index + 1 } else s

def advance (s : Stream) : Nat → Stream
  | 0 => s
  | steps + 1 => s.next.advance steps

@[simp] theorem tokens_rewind (s : Stream) : s.rewind.tokens = s.tokens := rfl

@[simp] theorem tokens_next (s : Stream) : s.next.tokens = s.tokens := by
  unfold next
  split <;> rfl

@[simp] theorem tokens_advance (s : Stream) (steps : Nat) :
    (s.advance steps).tokens = s.tokens := by
  induction steps generalizing s with
  | zero => rfl
  | succ steps ih => rw [advance, ih, tokens_next]

theorem advance_add (s : Stream) (first second : Nat) :
    s.advance (first + second) = (s.advance first).advance second := by
  induction first generalizing s with
  | zero => rw [Nat.zero_add, advance]
  | succ first ih => rw [Nat.succ_add, advance, ih, advance]

def valid (s : Stream) : Bool :=
  0 ≤ s.index && s.index < s.tokens.length

def outside (s : Stream) : Fault :=
  .position s.index s.tokens.length

def current (s : Stream) : Except Fault Token :=
  if s.index < 0 then .error s.outside
  else match s.tokens[s.index.toNat]? with
    | some t => .ok t
    | none => .error s.outside

def key (s : Stream) : Except Fault Int :=
  if s.valid then .ok s.index else .error s.outside

/-- The tokens after the cursor. -/
def following (s : Stream) : List Token :=
  s.tokens.drop (s.index + 1).toNat

def written (s : Stream) : String :=
  "TokenStack(" ++ s.tokens.length.repr ++ " tokens, cursor=" ++ s.index.repr ++ ")"

/-- The operations on a stream. Only the first two move the cursor. -/
inductive Step where
  | rewind
  | next
  | valid
  | key
  | current
  | tokens
  | iterate
  | length
  | written
deriving DecidableEq, Repr

inductive Answer where
  | nothing
  | flag (b : Bool)
  | index (n : Int)
  | token (t : Token)
  | tokens (ts : List Token)
  | text (s : String)
deriving DecidableEq, Repr

def step (s : Stream) : Step → Stream × Except Fault Answer
  | .rewind => (s.rewind, .ok .nothing)
  | .next => (s.next, .ok .nothing)
  | .valid => (s, .ok (.flag s.valid))
  | .key => (s, s.key.map .index)
  | .current => (s, s.current.map .token)
  | .tokens | .iterate => (s, .ok (.tokens s.tokens))
  | .length => (s, .ok (.index s.tokens.length))
  | .written => (s, .ok (.text s.written))

/-- Does steps one after the other. One that fails leaves the stream as it is. -/
def run (s : Stream) : List Step → List (Stream × Except Fault Answer)
  | [] => []
  | step :: rest =>
    let done := s.step step
    done :: done.1.run rest

end Stream

end RuleForest
