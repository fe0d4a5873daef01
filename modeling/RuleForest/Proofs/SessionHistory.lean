import Mathlib.Data.List.Induction
import RuleForest.Session
import RuleForest.Proofs.CursorScan
import RuleForest.Proofs.ReadingFaults

namespace RuleForest

theorem Traced.result_map_eq_error {α β : Type} {run : Traced α} {f : α → β} {fault : Fault} :
    (f <$> run).result = .error fault ↔ run.result = .error fault := by
  rcases run with ⟨events, other | a⟩ <;> constructor <;> intro failed <;> cases failed <;> rfl

namespace Stream

variable {s t : Stream} {o : Options} {depth : Int}

theorem rewind_congr (same : s.tokens = t.tokens) : s.rewind = t.rewind := by
  simp only [rewind, same]

/-- Reading a whole stream depends on its tokens and not on its cursor. -/
theorem readForest_congr (same : s.tokens = t.tokens) :
    s.readForest o depth = t.readForest o depth := by
  rw [readForest, readForest, rewind_congr same, same]

/-- A cursor is on a token, or reading at it fails for its place alone. -/
theorem current_cases (s : Stream) :
    (0 ≤ s.index ∧ s.index < s.tokens.length ∧ ∃ t, s.current = .ok t) ∨
      (¬ (0 ≤ s.index ∧ s.index < s.tokens.length) ∧ s.current = .error s.outside) := by
  unfold current
  by_cases before : s.index < 0
  · exact Or.inr ⟨by omega, if_pos before⟩
  rw [if_neg before]
  cases found : s.tokens[s.index.toNat]? with
  | none =>
    have beyond := List.getElem?_eq_none_iff.mp found
    exact Or.inr ⟨by omega, rfl⟩
  | some t =>
    have inside := (List.getElem?_eq_some_iff.mp found).1
    exact Or.inl ⟨by omega, by omega, t, rfl⟩

theorem map_key_eq_error {α : Type} {f : Int → α} {fault : Fault} (s : Stream) :
    s.key.map f = .error fault ↔ s.key = .error fault := by
  cases s.key <;> constructor <;> intro failed <;> cases failed <;> rfl

theorem key_position_iff (s : Stream) :
    (∃ index length, s.key = .error (.position index length)) ↔
      ¬ (0 ≤ s.index ∧ s.index < s.tokens.length) := by
  by_cases inside : 0 ≤ s.index ∧ s.index < s.tokens.length
  · have valid : s.valid = true := by simpa [Stream.valid] using inside
    simp [key, valid, inside]
  · have valid : s.valid = false := by simpa [Stream.valid] using inside
    simp [key, valid, outside, inside]

/-- Reading at a cursor that is on a token never fails for its place. -/
theorem readNode_position_iff (s : Stream) (o : Options) (depth : Int) :
    (∃ index length, (s.readNode o depth).2.result = .error (.position index length)) ↔
      ¬ (0 ≤ s.index ∧ s.index < s.tokens.length) := by
  rcases s.current_cases with ⟨start, inside, t, here⟩ | ⟨outside, missing⟩
  · refine ⟨?_, fun beyond => absurd ⟨start, inside⟩ beyond⟩
    rintro ⟨index, length, failed⟩
    rw [readNode, here] at failed
    obtain ⟨⟨⟩⟩ | ⟨cause, u, ⟨⟩⟩ := read_blames failed
  · refine ⟨fun _ => outside, fun _ => ⟨s.index, s.tokens.length, ?_⟩⟩
    rw [readNode, missing]
    rfl

theorem index_placed_mono (tokens : List Token) (c n : Nat) :
    (placed tokens c).index ≤ (placed tokens (c + n)).index := by
  rw [index_placed, index_placed]
  split <;> split <;> omega

theorem index_placed_bounds (tokens : List Token) (c : Nat) :
    -1 ≤ (placed tokens c).index ∧ (placed tokens c).index ≤ tokens.length ∧
      ((placed tokens c).index = -1 → tokens = []) := by
  rw [index_placed]
  split
  · rename_i empty
    exact ⟨by decide, by omega, fun _ => List.eq_nil_of_length_eq_zero empty.1⟩
  · exact ⟨by omega, by omega, fun before => by omega⟩

end Stream

namespace Session

/-- The steps that take the cursor to the start of the stream first. -/
def Step.restarts : Step → Bool
  | .new _ | .rewind | .nodes | .values | .same => true
  | .drop | .next | .valid | .key | .current | .get _ | .has _ | .value | .outline => false

/-- The session that steps leave behind. -/
def after (session : Session) : List Step → Session
  | [] => session
  | step :: rest => (session.step step).1.after rest

theorem run_append (session : Session) (before : List Step) (step : Step) :
    session.run (before ++ [step]) = session.run before ++ [(session.after before).step step] := by
  induction before generalizing session with
  | nil => rfl
  | cons first rest ih => rw [List.cons_append, run, ih, run, after, List.cons_append]

theorem after_append (session : Session) (before : List Step) (step : Step) :
    session.after (before ++ [step]) = ((session.after before).step step).1 := by
  induction before generalizing session with
  | nil => rfl
  | cons first rest ih => rw [List.cons_append, after, ih, after]

/-- What a step can do to the stream: take the cursor some steps further,
from where it is or from the start. -/
theorem step_stream (session : Session) (step : Step) :
    ∃ n, (session.step step).1.stream =
      (if step.restarts then session.stream.rewind else session.stream).advance n := by
  cases step with
  | new frame => exact ⟨0, rfl⟩
  | drop =>
    refine ⟨0, ?_⟩
    change session.pop.stream = session.stream
    unfold pop
    split <;> rfl
  | rewind => exact ⟨0, rfl⟩
  | next => exact ⟨1, rfl⟩
  | valid => exact ⟨0, rfl⟩
  | key => exact ⟨0, rfl⟩
  | current => exact session.stream.readNode_moves _ _
  | nodes => exact ⟨_, rfl⟩
  | get name => exact ⟨0, rfl⟩
  | has name => exact ⟨0, rfl⟩
  | value => exact session.stream.readNode_moves _ _
  | values => exact ⟨_, rfl⟩
  | outline => exact session.stream.readNode_moves _ _
  | same =>
    -- The second reading begins at the start again, and ends where the first did.
    refine ⟨(forest session.frame.options session.frame.depth session.stream.tokens).advances, ?_⟩
    change ((session.stream.rewind.advance _).readForest _ _).1 = session.stream.rewind.advance _
    rw [Stream.readForest_congr (Stream.tokens_advance _ _)]
    rfl

theorem step_functions (session : Session) (step : Step) :
    (session.step step).1.functions = session.functions := by
  cases step with
  | drop =>
    change session.pop.functions = session.functions
    unfold pop
    split <;> rfl
  | _ => rfl

/-- After any steps the functions are the given ones, and the stream is the
given tokens with a cursor that steps of its own can reach. -/
theorem after_start (tokens : List Token) (functions : Functions) (frame : Frame)
    (before : List Step) :
    ((start (.ofList tokens) functions frame).after before).functions = functions ∧
      ∃ c, ((start (.ofList tokens) functions frame).after before).stream = .placed tokens c := by
  induction before using List.reverseRecOn with
  | nil => exact ⟨rfl, 0, rfl⟩
  | append_singleton before step ih =>
    obtain ⟨same, c, here⟩ := ih
    obtain ⟨n, moved⟩ := ((start (.ofList tokens) functions frame).after before).step_stream step
    rw [after_append]
    refine ⟨(step_functions _ step).trans same, ?_⟩
    rw [moved, here]
    split
    · exact ⟨n, by rw [Stream.rewind_placed, Stream.advance_placed, Nat.zero_add]⟩
    · exact ⟨c + n, Stream.advance_placed tokens c n⟩

/-- The steps that read the whole stream. -/
def Step.traverses : Step → Bool
  | .nodes | .values | .same => true
  | .new _ | .drop | .rewind | .next | .valid | .key | .current | .get _ | .has _ | .value
  | .outline => false

/-- The second of two readings of a whole stream is the first one again. -/
theorem same_eq (session : Session) :
    session.same = (session.readForest.1, session.readForest.2 >>= fun first =>
      session.readForest.2 >>= fun second => pure (decide (first = second))) := by
  have again : (session.withStream session.readForest.1).readForest = session.readForest :=
    Stream.readForest_congr (Stream.tokens_advance _ _)
  change ((session.withStream session.readForest.1).readForest.1, session.readForest.2 >>= fun _ =>
    (session.withStream session.readForest.1).readForest.2 >>= _) = _
  rw [again]

theorem same_of_nodes (session : Session) (done : (session.step .nodes).2.succeeds = true) :
    (session.step .same).2.result = .ok (.flag true) := by
  obtain ⟨answer, named⟩ := Traced.succeeds_iff.mp done
  obtain ⟨nodes, run, _⟩ := Traced.result_bind_eq_ok.mp named
  change (Answer.flag <$> session.same.2).result = _
  rw [same_eq]
  refine Traced.result_bind_eq_ok.mpr ⟨true, ?_, rfl⟩
  refine Traced.result_bind_eq_ok.mpr ⟨nodes, run, Traced.result_bind_eq_ok.mpr ⟨nodes, run, ?_⟩⟩
  rw [decide_eq_true rfl]
  rfl

/-- Reading the whole stream gives the same in two sessions that differ only
in their cursors and in their older readers. -/
theorem step_congr {session other : Session} {step : Step} (traverses : step.traverses = true)
    (tokens : session.stream.tokens = other.stream.tokens) (frames : session.frame = other.frame)
    (functions : session.functions = other.functions) :
    (session.step step).2 = (other.step step).2 ∧
      (session.step step).1.stream = (other.step step).1.stream := by
  have forests : session.readForest = other.readForest := by
    rw [readForest, readForest, frames]
    exact Stream.readForest_congr tokens
  have scopes : session.scope = other.scope := by
    rw [scope, scope, frames, functions]
  cases step with
  | nodes =>
    change Answer.nodes <$> session.readForest.2 = Answer.nodes <$> other.readForest.2 ∧
      session.readForest.1 = other.readForest.1
    rw [forests]
    exact ⟨rfl, rfl⟩
  | values =>
    have folds : session.values = other.values := by
      rw [values, values, forests, frames, scopes]
    change Answer.values <$> session.values.2 = Answer.values <$> other.values.2 ∧
      session.values.1 = other.values.1
    rw [folds]
    exact ⟨rfl, rfl⟩
  | same =>
    change Answer.flag <$> session.same.2 = Answer.flag <$> other.same.2 ∧
      session.same.1 = other.same.1
    rw [same_eq, same_eq, forests]
    exact ⟨rfl, rfl⟩
  | _ => cases traverses

/-- What holds after any steps of readers that share one stream, whichever of
them failed. The tokens stay, and the cursor stays within them. Only the steps
that begin at the start take it back. The place of the cursor is a fault just
where no token is, and whatever reads the whole stream does so as it would at
first, on a reader of its own. -/
theorem step_after_start (tokens : List Token) (functions : Functions) (frame : Frame)
    (before : List Step) (step : Step) :
    let session := (start (.ofList tokens) functions frame).after before
    let done := session.step step
    let fresh := (start (.ofList tokens) functions session.frame).step step
    (start (.ofList tokens) functions frame).run (before ++ [step]) =
        (start (.ofList tokens) functions frame).run before ++ [done] ∧
      done.1.stream.tokens = tokens ∧
      -1 ≤ done.1.stream.index ∧ done.1.stream.index ≤ tokens.length ∧
      (done.1.stream.index = -1 → tokens = []) ∧
      (step.restarts = false → session.stream.index ≤ done.1.stream.index) ∧
      (step = .key ∨ step = .current →
        ((∃ index length, done.2.result = .error (.position index length)) ↔
          ¬ (0 ≤ session.stream.index ∧ session.stream.index < tokens.length))) ∧
      (step.traverses = true → done.2 = fresh.2 ∧ done.1.stream = fresh.1.stream) ∧
      ((session.step .nodes).2.succeeds = true →
        (session.step .same).2.result = .ok (.flag true)) := by
  intro session done fresh
  obtain ⟨kept, c, here⟩ := after_start tokens functions frame before
  obtain ⟨_, d, there⟩ := after_start tokens functions frame (before ++ [step])
  rw [after_append] at there
  change session.functions = functions at kept
  change session.stream = .placed tokens c at here
  change done.1.stream = .placed tokens d at there
  have atTokens : session.stream.tokens = tokens := by rw [here, Stream.tokens_placed]
  obtain ⟨least, most, empty⟩ := Stream.index_placed_bounds tokens d
  rw [← there] at least most empty
  refine ⟨run_append _ before step, by rw [there, Stream.tokens_placed], least, most, empty, ?_, ?_, ?_,
    session.same_of_nodes⟩
  · intro stays
    obtain ⟨n, moved⟩ := session.step_stream step
    rw [stays, if_neg Bool.false_ne_true, here, Stream.advance_placed] at moved
    rw [here, show done.1.stream = .placed tokens (c + n) from moved]
    exact Stream.index_placed_mono tokens c n
  · rw [← atTokens]
    rintro (rfl | rfl)
    · rw [← session.stream.key_position_iff]
      exact exists_congr fun index => exists_congr fun length => Stream.map_key_eq_error _
    · rw [← session.stream.readNode_position_iff session.frame.options session.frame.depth]
      exact exists_congr fun index => exists_congr fun length => Traced.result_map_eq_error
  · intro traverses
    exact step_congr traverses atTokens rfl kept

/-- A second reader of one number is dropped, and the cursor moves behind the
number. There it has no key, and the stream is read as at first. -/
theorem step_after_next :
    (∃ index length, (((start (.ofList [.bare .integer]) (fun _ => none) {}).after
      [.new { depth := 1 }, .drop, .next]).step .key).2.result = .error (.position index length)) ∧
    (((start (.ofList [.bare .integer]) (fun _ => none) {}).after [.new { depth := 1 }, .drop, .next]).step
        .nodes).2 =
      ((start (.ofList [.bare .integer]) (fun _ => none) {}).step .nodes).2 ∧
    (((start (.ofList [.bare .integer]) (fun _ => none) {}).after [.new { depth := 1 }, .drop, .next]).step
        .same).2.result = .ok (.flag true) ∧
    (0 : Int) ≤ (((start (.ofList [.bare .integer]) (fun _ => none) {}).after
      [.new { depth := 1 }, .drop]).step .next).1.stream.index := by
  have nodes : (((start (.ofList [.bare .integer]) (fun _ => none) {}).after
      [.new { depth := 1 }, .drop, .next]).step .nodes).2.succeeds = true := by
    have number (rest : List Token) : read .standard 0 (.bare .integer) rest =
        ⟨0, pure (.token (.bare .integer))⟩ := read_of_plain rfl
    have single : (forest .standard 0 [.bare .integer]).outcome.result =
        .ok [.token (.bare .integer)] := by
      refine forest_cons (by rw [number]; rfl) ?_
      rw [number, List.drop_zero, forest]
      rfl
    exact Traced.succeeds_iff.mpr ⟨_, Traced.result_bind_eq_ok.mpr ⟨_, single, rfl⟩⟩
  obtain ⟨_, _, _, _, _, _, place, _⟩ := step_after_start [.bare .integer] (fun _ => none) {}
    [.new { depth := 1 }, .drop, .next] .key
  obtain ⟨_, _, _, _, _, _, _, same, twice⟩ := step_after_start [.bare .integer] (fun _ => none) {}
    [.new { depth := 1 }, .drop, .next] .nodes
  obtain ⟨_, _, _, _, _, onward, _⟩ := step_after_start [.bare .integer] (fun _ => none) {}
    [.new { depth := 1 }, .drop] .next
  exact ⟨(place (Or.inl rfl)).mpr (by decide), (same rfl).1, twice nodes, onward rfl⟩

end Session

end RuleForest
