import RuleForest.Fault

namespace RuleForest

/-- What a run leaves behind besides its result: finished structures, looked
up names that are undefined, and invoked functions. -/
inductive Event where
  | array (position : Int) (items : Nat)
  | call (name : String) (position : Int) (args : Nat)
  | undefinedLookup (name : String)
  | invoked (name : String) (args : List Value)
deriving DecidableEq, Repr

namespace Event

/-- The log line of an event. Invocations are not logged. -/
def record? : Event → Option String
  | .array position items =>
    some ("ruletree.nodes:DEBUG:array at " ++ position.repr ++ " materialized with "
      ++ items.repr ++ " items")
  | .call name position args =>
    some ("ruletree.nodes:DEBUG:call " ++ name ++ " at " ++ position.repr
      ++ " materialized with " ++ args.repr ++ " args")
  | .undefinedLookup name =>
    some ("ruletree.ast:DEBUG:lookup of undefined variable " ++ quoted name)
  | .invoked _ _ => none

def invocation? : Event → Option (String × List Value)
  | .invoked name args => some (name, args)
  | _ => none

end Event

/-- The events of a run in order, and its result. A fault keeps the events
before it. -/
structure Traced (α : Type) where
  events : List Event
  result : Except Fault α
deriving Repr

namespace Traced

variable {α β γ : Type}

def fail (fault : Fault) : Traced α :=
  ⟨[], .error fault⟩

def ofExcept (result : Except Fault α) : Traced α :=
  ⟨[], result⟩

def emit (event : Event) : Traced Unit :=
  ⟨[event], .ok ()⟩

protected def bind (run : Traced α) (next : α → Traced β) : Traced β :=
  match run.result with
  | .ok a => ⟨run.events ++ (next a).events, (next a).result⟩
  | .error fault => ⟨run.events, .error fault⟩

instance : Monad Traced where
  pure a := ⟨[], .ok a⟩
  bind := Traced.bind

theorem pure_eq (a : α) : (pure a : Traced α) = ⟨[], .ok a⟩ := rfl

theorem mk_ok_bind (events : List Event) (a : α) (next : α → Traced β) :
    (Traced.mk events (.ok a) >>= next) = ⟨events ++ (next a).events, (next a).result⟩ := rfl

theorem mk_error_bind (events : List Event) (fault : Fault) (next : α → Traced β) :
    (Traced.mk events (.error fault) >>= next) = ⟨events, .error fault⟩ := rfl

instance : LawfulMonad Traced :=
  .mk' Traced
    (by
      rintro α ⟨events, _ | a⟩
      · rfl
      · exact congrArg (Traced.mk · (.ok a)) (List.append_nil events))
    (fun _ _ => rfl)
    (by
      rintro α β γ ⟨events, _ | a⟩ f g
      · rfl
      · simp only [mk_ok_bind]
        rcases f a with ⟨more, _ | b⟩
        · rfl
        · simp only [mk_ok_bind, List.append_assoc])

def succeeds (run : Traced α) : Bool :=
  match run.result with
  | .ok _ => true
  | .error _ => false

/-- The lines logged by a run. -/
def log (run : Traced α) : List String :=
  run.events.filterMap Event.record?

/-- The functions invoked by a run, each with its arguments. -/
def calls (run : Traced α) : List (String × List Value) :=
  run.events.filterMap Event.invocation?

end Traced

end RuleForest
