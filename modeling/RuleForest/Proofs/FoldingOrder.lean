import RuleForest.Proofs.UsedNames

namespace RuleForest

/-- A run does what another one does as far as it goes: it ends alike behind
the same invocations, or fails behind the first of them. -/
inductive Traced.Leads {α : Type} (run full : Traced α) : Prop
  | alike : run.result = full.result → run.calls = full.calls → Leads run full
  | short {fault} : run.result = .error fault → run.calls <+: full.calls → Leads run full

namespace Traced

variable {α β : Type} {run full : Traced α} {next more : α → Traced β}

theorem Leads.refl (run : Traced α) : run.Leads run :=
  .alike rfl rfl

theorem Leads.isPrefix (leads : run.Leads full) : run.calls <+: full.calls := by
  cases leads with
  | alike _ calls => exact calls ▸ List.prefix_rfl
  | short _ calls => exact calls

theorem calls_isPrefix_bind (run : Traced α) (next : α → Traced β) :
    run.calls <+: (run >>= next).calls := by
  cases ended : run.result with
  | ok a =>
    rw [calls_bind_of_ok ended]
    exact List.prefix_append _ _
  | error fault =>
    rw [bind_of_error ended]
    exact List.prefix_rfl

theorem Leads.bind (first : run.Leads full) (later : ∀ a, (next a).Leads (more a)) :
    (run >>= next).Leads (full >>= more) := by
  cases first with
  | short failed calls =>
    rw [bind_of_error failed]
    exact .short rfl (calls.trans (calls_isPrefix_bind full more))
  | alike result calls =>
    cases ended : full.result with
    | error fault =>
      rw [bind_of_error ended, bind_of_error (result.trans ended)]
      exact .alike rfl calls
    | ok a =>
      have done := result.trans ended
      cases later a with
      | alike result' calls' =>
        refine .alike ?_ ?_
        · rw [bind_of_ok ended, bind_of_ok done, result']
        · rw [calls_bind_of_ok ended, calls_bind_of_ok done, calls, calls']
      | @short fault failed calls' =>
        refine @Leads.short _ _ _ fault ?_ ?_
        · rw [bind_of_ok done, failed]
        · rw [calls_bind_of_ok ended, calls_bind_of_ok done, calls]
          exact (List.prefix_append_right_inj full.calls).mpr calls'

end Traced

namespace Node

/-- The calls in value positions, those in the arguments of a call before it. -/
def callNodes (node : Node) : List Node :=
  node.valueNodes.filter fun sub => sub.hasShape .call

theorem callNodes_eq (node : Node) :
    node.callNodes =
      node.valueChildren.flatMap callNodes ++ [node].filter fun sub => sub.hasShape .call := by
  rw [callNodes, valueNodes_eq, List.filter_append, List.filter_flatMap]
  rfl

end Node

/-- The invocation that belongs to a call: its name, with what its arguments
fold to. -/
structure Scope.Invokes (scope : Scope) (call : Node) (invocation : String × List Value) : Prop where
  name : call.callName = .ok invocation.1
  args : ∃ args, call.callArgs = .ok args ∧
    List.Forall₂ (fun arg v => (arg.fold scope).result = .ok v) args invocation.2

section Order

variable {scope larger : Scope} {node : Node} {finish : List Value → Traced Value}

theorem Token.fold_calls (scope : Scope) (t : Token) : (t.fold scope).calls = [] := by
  rcases t.fold_cases with ⟨x, _, _, looks⟩ | ⟨_, _, fails⟩ | ⟨_, reads⟩
  · rw [looks, Scope.lookup]
    cases scope.bindings x <;> rfl
  · rw [fails]
    rfl
  · rw [reads]
    rfl

theorem Token.fold_leads (extends_ : larger.Extends scope) (t : Token) :
    (t.fold scope).Leads (t.fold larger) := by
  rcases t.fold_cases with ⟨x, _, _, looks⟩ | ⟨_, _, fails⟩ | ⟨_, reads⟩
  · rw [looks, looks, Scope.lookup, Scope.lookup]
    cases bound : scope.bindings x with
    | none => exact .short rfl (List.nil_prefix)
    | some v =>
      rw [extends_.bindings _ v bound]
      exact .refl _
  · rw [fails, fails]
    exact .refl _
  · rw [reads, reads]
    exact .refl _

theorem Leaf.fold_calls (l : Leaf) : l.fold.calls = [] := by
  unfold Leaf.fold
  split <;> rfl

/-- What a node settles first fails, or it is settled in a larger scope too, and
what is left goes on alike. -/
theorem Node.prepare_extended (extends_ : larger.Extends scope) (node : Node) :
    (∃ fault, node.prepare scope = .error fault) ∨
      ∃ finish more, node.prepare scope = .ok finish ∧ node.prepare larger = .ok more ∧
        ∀ vs, (finish vs).Leads (more vs) := by
  cases node.form with
  | token t => exact Or.inr ⟨_, _, rfl, rfl, fun _ => t.fold_leads extends_⟩
  | leaf l => exact Or.inr ⟨_, _, rfl, rfl, fun _ => .refl _⟩
  | array items => exact Or.inr ⟨_, _, prepare_array items, prepare_array items, fun _ => .refl _⟩
  | nameless => exact Or.inl ⟨_, prepare_nameless⟩
  | call name parts =>
    cases settled : (tree Shape.call.label (name :: parts)).prepare scope with
    | error fault => exact Or.inl ⟨fault, rfl⟩
    | ok finish =>
      obtain ⟨called, f, args, told, bound, found, rfl⟩ := prepare_call_eq_ok settled
      refine Or.inr ⟨_, _, rfl, ?_, fun _ => .refl _⟩
      rw [prepare_defined told (extends_.functions _ f bound), found]
      rfl
  | other children notArray notCall => exact Or.inl ⟨_, prepare_other notArray notCall⟩

theorem Node.foldAll_leads {nodes : List Node}
    (each : ∀ child ∈ nodes, (child.fold scope).Leads (child.fold larger)) :
    (foldAll scope nodes).Leads (foldAll larger nodes) := by
  induction nodes with
  | nil => exact .refl _
  | cons first rest ih =>
    obtain ⟨here, others⟩ := List.forall_mem_cons.mp each
    rw [foldAll, foldAll]
    exact here.bind fun v => (ih others).bind fun vs => .refl _

/-- In a larger scope a node is folded as before, up to where that failed. -/
theorem Node.fold_leads (extends_ : larger.Extends scope) (node : Node) :
    (node.fold scope).Leads (node.fold larger) := by
  induction node using value_induction with
  | step node inner =>
    rw [fold_eq, fold_eq]
    rcases node.prepare_extended extends_ with ⟨fault, missed⟩ | ⟨finish, more, here, there, leads⟩
    · rw [missed]
      exact .short rfl List.nil_prefix
    · rw [here, there]
      exact (foldAll_leads inner).bind leads

/-- A node that finishes invokes at most the function of its own call. -/
theorem Node.own_calls {vs : List Value} (settled : node.prepare scope = .ok finish)
    (children : List.Forall₂ (fun child v => (child.fold scope).result = .ok v) node.valueChildren vs) :
    List.Forall₂ scope.Invokes ([node].filter fun sub => sub.hasShape .call) (finish vs).calls := by
  cases node.form with
  | token t =>
    cases settled
    rw [t.fold_calls]
    exact .nil
  | leaf l =>
    cases settled
    rw [l.fold_calls]
    exact .nil
  | array items =>
    rw [prepare_array] at settled
    cases settled
    exact .nil
  | nameless =>
    rw [prepare_nameless] at settled
    cases settled
  | call name parts =>
    obtain ⟨called, f, args, told, _, found, rfl⟩ := prepare_call_eq_ok settled
    rw [valueChildren_call, found] at children
    exact .cons ⟨callName_call told, args, found, children⟩ .nil
  | other children notArray notCall =>
    rw [prepare_other notArray notCall] at settled
    cases settled

theorem Node.fold_invokes {v : Value} (run : (node.fold scope).result = .ok v) :
    List.Forall₂ scope.Invokes node.callNodes (node.fold scope).calls := by
  induction node using value_induction generalizing v with
  | step node inner =>
    obtain ⟨finish, vs, settled, folded, _, calls⟩ := fold_eq_ok run
    obtain ⟨values, events⟩ := foldAll_of_ok folded
    have each (child : Node) (member : child ∈ node.valueChildren) :
        List.Forall₂ scope.Invokes child.callNodes (child.fold scope).calls := by
      obtain ⟨w, run⟩ := fold_of_foldAll folded child member
      exact inner child member run
    rw [callNodes_eq, calls, Traced.calls_of_events events]
    have inside : List.Forall₂ scope.Invokes (node.valueChildren.flatMap callNodes)
        (node.valueChildren.flatMap fun child => (child.fold scope).calls) :=
      List.rel_flatMap (R := fun a b => List.Forall₂ scope.Invokes a.callNodes (b.fold scope).calls)
        (List.forall₂_same.mpr each) fun _ _ related => related
    exact List.rel_append inside (own_calls settled values)

/-- A call of an undefined function fails before anything in it is folded, and
whether or not it has arguments. -/
theorem Node.fold_undefined {name : String} (named : node.callName = .ok name)
    (missing : scope.functions name = none) : node.fold scope = .fail (.undefinedFunction name) := by
  obtain ⟨first, parts, rfl, told⟩ := callName_eq_ok named
  rw [fold_eq, prepare_undefined told missing]
  rfl

end Order

/-- Folding goes through a node in order. If it succeeds, then just the calls
in value positions are invoked, each behind those in its arguments, and with
what its arguments fold to. In a larger scope nothing is invoked before what
was invoked already. A call whose function is undefined fails for that, wherever
it stands, with nothing in it looked at. -/
theorem Node.fold_order (node : Node) (scope : Scope) :
    (∀ v, (node.fold scope).result = .ok v →
      List.Forall₂ scope.Invokes node.callNodes (node.fold scope).calls) ∧
    (∀ larger : Scope, larger.Extends scope → (node.fold scope).calls <+: (node.fold larger).calls) ∧
    ∀ name, node.callName = .ok name → scope.functions name = none → ∀ levels,
      (node.surrounded levels).fold scope =
        foldAhead scope levels >>= fun _ => Traced.fail (.undefinedFunction name) := by
  refine ⟨fun v run => fold_invokes run, fun larger extends_ => (node.fold_leads extends_).isPrefix, ?_⟩
  intro name named missing levels
  obtain ⟨behind, factors⟩ := fold_surrounded scope levels
  rw [factors, fold_undefined named missing]
  rfl

/-- The call `list(count(x), [null()])`, once with `null` undefined. -/
theorem Node.fold_order_of_list :
    let named (name : String) : Leaf := { label := "NAME", text := name }
    let count := Node.call (named "count") [.token ⟨.variable, .text "x", 0, 1⟩]
    let null := Node.call (named "null") []
    let node := Node.call (named "list") [count, .array [null]]
    let one : Scope := ⟨fun _ => some (.int 7), Functions.select ["list", "count"]⟩
    let two : Scope := ⟨fun _ => some (.int 7), Functions.stock⟩
    List.Forall₂ two.Invokes [count, null, node]
        [("count", [.int 7]), ("null", []), ("list", [.int 1, .list [.null]])] ∧
      [("count", [.int 7])] <+: (node.fold two).calls ∧
      node.fold one = ⟨[.invoked "count" [.int 7]], .error (.undefinedFunction "null")⟩ := by
  intro named count null node one two
  have larger : two.Extends one := by
    refine ⟨fun _ _ bound => bound, fun name f bound => ?_⟩
    exact Functions.stock_of_select bound
  have way : null.surrounded [.argument (.leaf (named "list")) "args" [count] [] [],
      .item [] []] = node := rfl
  have undefined := (fold_order null one).2.2 "null" rfl rfl
    [.argument (.leaf (named "list")) "args" [count] [] [], .item [] []]
  rw [way] at undefined
  exact ⟨(fold_order node two).1 (.list [.int 1, .list [.null]]) rfl,
    (fold_order node one).2.1 two larger, undefined⟩

end RuleForest
