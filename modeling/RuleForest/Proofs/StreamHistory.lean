import Mathlib.Data.List.DropRight
import Mathlib.Data.List.Induction
import RuleForest.Proofs.CursorScan

namespace RuleForest

namespace Stream

/-- The stream that steps leave behind, whichever of them failed. -/
def after (s : Stream) : List Step → Stream
  | [] => s
  | step :: rest => (s.step step).1.after rest

/-- How many steps forward were taken since the last return to the start. -/
def Step.forward (steps : List Step) : Nat :=
  (steps.rtakeWhile (· ≠ .rewind)).count .next

/-- The steps forward that count behind one further step. -/
def Step.counted (c : Nat) : Step → Nat
  | .rewind => 0
  | .next => c + 1
  | .valid | .key | .current | .tokens | .iterate | .length | .written => c

/-- Looks at the token under the cursor and takes a step forward, as long as
the cursor is on a token. -/
def visit (s : Stream) : Stream × Except Fault (List Token) :=
  if _valid : s.valid then
    match s.current with
    | .error fault => (s, .error fault)
    | .ok t =>
      let others := s.next.visit
      (others.1, others.2.map (t :: ·))
  else (s, .ok [])
termination_by s.left
decreasing_by exact left_next_lt (index_lt_of_valid _valid)

theorem run_append (s : Stream) (before : List Step) (step : Step) :
    s.run (before ++ [step]) = s.run before ++ [(s.after before).step step] := by
  induction before generalizing s with
  | nil => rfl
  | cons first rest ih => simp only [List.cons_append, run, after, ih]

theorem after_append (s : Stream) (before : List Step) (step : Step) :
    s.after (before ++ [step]) = ((s.after before).step step).1 := by
  induction before generalizing s with
  | nil => rfl
  | cons first rest ih => simp only [List.cons_append, after, ih]

theorem Step.forward_concat (before : List Step) (step : Step) :
    Step.forward (before ++ [step]) = step.counted (Step.forward before) := by
  cases step <;> simp [Step.forward, Step.counted]

section Places

variable {tokens rest : List Token} {c : Nat} {t : Token}

theorem step_placed (step : Step) :
    ((placed tokens c).step step).1 = placed tokens (step.counted c) := by
  cases step with
  | rewind => exact rewind_placed tokens c
  | next => exact next_placed tokens c
  | _ => rfl

/-- Whatever the steps are, only those forward since the last return count. -/
theorem after_ofList (tokens : List Token) (before : List Step) :
    (ofList tokens).after before = placed tokens (Step.forward before) := by
  induction before using List.reverseRecOn with
  | nil => rfl
  | append_singleton before step ih =>
    rw [after_append, ih, step_placed, Step.forward_concat]

theorem valid_placed (tokens : List Token) (c : Nat) :
    (placed tokens c).valid = decide (c < tokens.length) := by
  cases behind : tokens.drop c with
  | nil =>
    have long := List.drop_eq_nil_iff.mp behind
    rw [valid_placed_of_nil behind, decide_eq_false (by omega)]
  | cons t rest =>
    have length := congrArg List.length behind
    rw [List.length_drop, List.length_cons] at length
    rw [valid_placed_of_cons behind, decide_eq_true (by omega)]

theorem key_placed (found : tokens[c]? = some t) : (placed tokens c).key = .ok c := by
  have within : c < tokens.length := (List.getElem?_eq_some_iff.mp found).1
  have index := index_placed_of_le (Nat.le_of_lt within) (Or.inl (by omega))
  rw [key, valid_placed, if_pos (decide_eq_true within), index]

/-- Behind the last token the cursor has neither key nor token. -/
theorem outside_placed (behind : tokens.length ≤ c) :
    (placed tokens c).key = .error (placed tokens c).outside ∧
      (placed tokens c).current = .error (placed tokens c).outside := by
  have invalid : (placed tokens c).valid = false := by
    rw [valid_placed]
    exact decide_eq_false (by omega)
  refine ⟨by rw [key, invalid]; rfl, ?_⟩
  have index := index_placed tokens c
  rw [current, tokens_placed]
  split
  · rfl
  · have none : tokens[(placed tokens c).index.toNat]? = none := by
      refine List.getElem?_eq_none ?_
      split at index <;> omega
    rw [none]

theorem current_placed_iff : (placed tokens c).current = .ok t ↔ tokens[c]? = some t := by
  refine ⟨fun here => ?_, current_placed⟩
  cases found : tokens[c]? with
  | none =>
    have tokenless := (outside_placed (List.getElem?_eq_none_iff.mp found)).2
    rw [here] at tokenless
    cases tokenless
  | some u =>
    have there := current_placed found
    rw [here] at there
    cases there
    rfl

theorem visit_placed (behind : tokens.drop c = rest) :
    (placed tokens c).visit = (placed tokens (c + rest.length), .ok rest) := by
  induction rest generalizing c with
  | nil =>
    rw [visit, dif_neg (by simp [valid_placed_of_nil behind])]
    rfl
  | cons t rest ih =>
    have later := ih (drop_of_cons behind 0)
    rw [visit, dif_pos (valid_placed_of_cons behind), current_placed_of_cons behind]
    simp only [next_placed, later, List.length_cons, Except.map, Nat.add_assoc, Nat.add_comm 1]

end Places

/-- What a stream answers at any point of its history. The cursor and the
answers depend on the tokens and on the number of steps forward since the last
return to the start alone. Whatever was done before, returning to the start
and visiting token after token meets every one of them once and in order. -/
theorem answers_of_forward (tokens : List Token) (before : List Step) (step : Step) :
    let k := Step.forward before
    let s := (ofList tokens).after before
    (ofList tokens).run (before ++ [step]) = (ofList tokens).run before ++ [s.step step] ∧
    s.tokens = tokens ∧
    s.index = (if tokens.length = 0 then (if k = 0 then -1 else 0)
      else ((min k tokens.length : Nat) : Int)) ∧
    (s.step .valid).2 = .ok (.flag (decide (k < tokens.length))) ∧
    (∀ t, tokens[k]? = some t →
      (s.step .key).2 = .ok (.index k) ∧ (s.step .current).2 = .ok (.token t)) ∧
    (tokens.length ≤ k →
      (s.step .key).2 = .error (.position s.index tokens.length) ∧
      (s.step .current).2 = .error (.position s.index tokens.length)) ∧
    (s.step .tokens).2 = .ok (.tokens tokens) ∧ (s.step .iterate).2 = .ok (.tokens tokens) ∧
    s.rewind.visit = (placed tokens tokens.length, .ok tokens) := by
  intro k s
  have here : s = placed tokens k := after_ofList tokens before
  have kept : s.tokens = tokens := by rw [here, tokens_placed]
  refine ⟨run_append _ before step, kept, ?_, ?_, fun t found => ?_, fun behind => ?_, ?_, ?_, ?_⟩
  · have index := index_placed tokens k
    rw [here, index]
    by_cases empty : tokens.length = 0
    · by_cases still : k = 0
      · rw [if_pos ⟨empty, still⟩, if_pos empty, if_pos still]
      · rw [if_neg (fun both => still both.2), if_pos empty, if_neg still]
        omega
    · rw [if_neg (fun both => empty both.1), if_neg empty]
  · have valid := valid_placed tokens k
    rw [← here] at valid
    exact congrArg (fun b => Except.ok (Answer.flag b)) valid
  · have keyed := key_placed found
    have current := current_placed found
    rw [← here] at keyed current
    exact ⟨congrArg (Except.map Answer.index) keyed, congrArg (Except.map Answer.token) current⟩
  · obtain ⟨keyless, tokenless⟩ := outside_placed behind
    rw [← here, outside, kept] at keyless tokenless
    exact ⟨congrArg (Except.map Answer.index) keyless, congrArg (Except.map Answer.token) tokenless⟩
  · exact congrArg (fun ts => Except.ok (Answer.tokens ts)) kept
  · exact congrArg (fun ts => Except.ok (Answer.tokens ts)) kept
  · rw [here, rewind_placed, @visit_placed tokens tokens 0 rfl, Nat.zero_add]

/-- The cursor fails behind the last of two tokens, returns to the start and
takes a step to the second. On no tokens it fails at zero however often it
is moved on. -/
theorem answers_after_return :
    (((ofList [.bare .integer, .bare .comma]).after [.next, .next, .key, .rewind, .next]).step
      .key).2 = .ok (.index 1) ∧
    (((ofList [.bare .integer, .bare .comma]).after [.next, .next, .key, .rewind, .next]).step
      .current).2 = .ok (.token (.bare .comma)) ∧
    (((ofList []).after [.next, .current, .next]).step .key).2 = .error (.position 0 0) := by
  obtain ⟨_, _, _, _, inside, _⟩ := answers_of_forward [.bare .integer, .bare .comma]
    [.next, .next, .key, .rewind, .next] .key
  obtain ⟨_, _, index, _, _, outside, _⟩ := answers_of_forward [] [.next, .current, .next] .key
  have failed := (outside (by decide)).1
  rw [index] at failed
  exact ⟨(inside (.bare .comma) (by decide)).1, (inside (.bare .comma) (by decide)).2, failed⟩

end Stream

end RuleForest
