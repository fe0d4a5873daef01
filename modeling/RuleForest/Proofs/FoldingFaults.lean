import RuleForest.Proofs.FoldingSteps
import RuleForest.Proofs.MaterializedNode

namespace RuleForest

/-- Why a structure does not fold to a value: a name in it is undefined, a
function that was invoked failed, a number token of it is no number, or the
value of a variable or of a truth value cannot be written. A text that is no
number is malformed, and only other values fail otherwise. -/
inductive Scope.Fails (scope : Scope) (node : Node) (events : List Event) : Fault → Prop
  | unbound {name} : scope.bindings name = none → Fails scope node events (.undefinedVariable name)
  | undefined {name} : scope.functions name = none → Fails scope node events (.undefinedFunction name)
  | raised {name f args fault} : scope.functions name = some f → .invoked name args ∈ events →
      f args = .error fault → Fails scope node events fault
  | malformed {t} : (Node.token t).Occurs node → t.kind = .integer ∨ t.kind = .float →
      Fails scope node events (.blame (.malformedNumeral t.kind t.value) t)
  | notNumeric {t} : (Node.token t).Occurs node → t.kind = .integer ∨ t.kind = .float →
      (∀ s, t.value ≠ .text s) → Fails scope node events .notNumeric
  | overflow {t} : (Node.token t).Occurs node → t.kind = .integer ∨ t.kind = .float →
      (∀ s, t.value ≠ .text s) → Fails scope node events .overflow
  | unwritable {t} : (Node.token t).Occurs node → t.kind = .variable ∨ t.kind = .bool →
      t.value.isWritable = false → Fails scope node events .unwritable

namespace Traced

variable {α β : Type}

theorem events_subset_bind (run : Traced α) (next : α → Traced β) :
    run.events ⊆ (run >>= next).events := by
  rcases run with ⟨events, fault | a⟩
  · exact List.Subset.refl events
  · exact List.subset_append_left events _

theorem next_events_subset_bind {run : Traced α} {a : α} (done : run.result = .ok a)
    (next : α → Traced β) : (next a).events ⊆ (run >>= next).events := by
  rcases run with ⟨events, fault | b⟩
  · cases done
  · cases done
    exact List.subset_append_right events _

end Traced

theorem Value.toInteger_of_text {s : String} {reason : NotNumber}
    (refused : (Value.text s).toInteger = .error reason) : reason = .malformed := by
  rw [toInteger] at refused
  split at refused
  · cases refused
  · exact (Except.error.inj refused).symm

theorem Value.toFloat_text (s : String) :
    (Value.text s).toFloat = match Numeral.float? s with
      | some x => .ok x
      | none => .error .malformed := rfl

theorem Value.toFloat_of_text {s : String} {reason : NotNumber}
    (refused : (Value.text s).toFloat = .error reason) : reason = .malformed := by
  rw [toFloat_text] at refused
  split at refused
  · cases refused
  · exact (Except.error.inj refused).symm

section Faults

variable {scope : Scope} {node sub : Node} {events more : List Event} {fault : Fault}

theorem Scope.Fails.within (fails : scope.Fails sub events fault) (occurs : sub.Occurs node)
    (kept : events ⊆ more) : scope.Fails node more fault := by
  cases fails with
  | unbound missing => exact .unbound missing
  | undefined missing => exact .undefined missing
  | raised bound invoked failed => exact .raised bound (kept invoked) failed
  | malformed inside number => exact .malformed (inside.trans occurs) number
  | notNumeric inside number other => exact .notNumeric (inside.trans occurs) number other
  | overflow inside number other => exact .overflow (inside.trans occurs) number other
  | unwritable inside kind hidden => exact .unwritable (inside.trans occurs) kind hidden

theorem Token.numberFault_fails {t : Token} {reason : NotNumber}
    (number : t.kind = .integer ∨ t.kind = .float)
    (other : ∀ s, t.value = .text s → reason = .malformed) :
    scope.Fails (.token t) events (t.numberFault reason) := by
  cases reason with
  | malformed => exact .malformed .here number
  | notNumeric => exact .notNumeric .here number fun s text => NotNumber.noConfusion (other s text)
  | overflow => exact .overflow .here number fun s text => NotNumber.noConfusion (other s text)

/-- How reading a number token fails: if it holds a text, that is malformed. -/
theorem Token.literal_number_error {t : Token} (number : t.kind = .integer ∨ t.kind = .float)
    (run : t.literal = .error fault) :
    ∃ reason, fault = t.numberFault reason ∧ ∀ s, t.value = .text s → reason = .malformed := by
  rcases number with kind | kind <;> simp only [literal, kind] at run
  · cases read : t.value.toInteger with
    | ok n => simp [read, Except.map, Except.mapError] at run
    | error reason =>
      simp only [read, Except.map, Except.mapError, Except.error.injEq] at run
      exact ⟨reason, run.symm, fun s text => Value.toInteger_of_text (text ▸ read)⟩
  · cases read : t.value.toFloat with
    | ok x => simp [read, Except.map, Except.mapError] at run
    | error reason =>
      simp only [read, Except.map, Except.mapError, Except.error.injEq] at run
      exact ⟨reason, run.symm, fun s text => Value.toFloat_of_text (text ▸ read)⟩

theorem Token.literal_fails {t : Token} (value : t.group = .value)
    (run : t.literal = .error fault) : scope.Fails (.token t) events fault := by
  by_cases number : t.kind = .integer ∨ t.kind = .float
  · obtain ⟨reason, rfl, text⟩ := literal_number_error number run
    exact numberFault_fails number text
  by_cases bool : t.kind = .bool
  · simp only [literal, bool] at run
    split at run <;> cases run
    exact .unwritable .here (Or.inr bool) (Bool.eq_false_iff.mpr ‹_›)
  · -- The other value tokens are read without fault.
    rw [not_or] at number
    unfold Token.group at value
    unfold Token.literal at run
    cases kind : t.kind <;> simp_all [Kind.group]

theorem Scope.lookup_fails {name : String} (run : (scope.lookup name).result = .error fault) :
    scope.Fails node events fault := by
  unfold lookup at run
  cases found : scope.bindings name with
  | some v =>
    rw [found] at run
    cases run
  | none =>
    rw [found] at run
    cases run
    exact .unbound found

theorem Scope.invoke_fails {name : String} {f : Function} {args : List Value}
    (bound : scope.functions name = some f) (run : (invoke name f args).result = .error fault) :
    scope.Fails node (invoke name f args).events fault :=
  .raised bound (List.mem_singleton.mpr rfl) run

/-- Folding a list stops at the first node that fails. -/
theorem Node.foldAll_eq_error {nodes : List Node}
    (run : (foldAll scope nodes).result = .error fault) :
    ∃ node ∈ nodes, (node.fold scope).result = .error fault ∧
      (node.fold scope).events ⊆ (foldAll scope nodes).events := by
  obtain ⟨before, node, after, rfl, _, failed, events⟩ := foldAll_of_error run
  refine ⟨node, List.mem_append_right before List.mem_cons_self, failed, ?_⟩
  intro event left
  rw [events]
  exact List.mem_flatMap.mpr ⟨node, List.mem_append_right before List.mem_cons_self, left⟩

theorem Node.fold_array (items : List Node) :
    (Node.tree "array" items).fold scope = foldAll scope items >>= fun vs => pure (.list vs) := by
  rw [fold, if_pos (show "array" = Shape.array.label from rfl)]

theorem Node.fold_call_undefined {name : Leaf} {parts : List Node}
    (missing : scope.functions name.text = none) :
    (Node.tree "call" (.leaf name :: parts)).fold scope = .fail (.undefinedFunction name.text) := by
  rw [fold, if_neg (by decide), if_pos (show "call" = Shape.call.label from rfl), foldCall, shown?_leaf]
  simp only [missing]

/-- A call whose function is defined folds its arguments and invokes it. -/
theorem Node.fold_call {name : Leaf} {args : List Node} {f : Function}
    (bound : scope.functions name.text = some f) :
    (Node.tree "call" [.leaf name, .tree "args" args]).fold scope =
      foldAll scope args >>= fun values => Scope.invoke name.text f values := by
  rw [fold, if_neg (by decide), if_pos (show "call" = Shape.call.label from rfl), foldCall, shown?_leaf]
  simp only [bound]
  rw [foldArgs]

mutual

theorem Node.Structured.fold_fails {o : Options} {node : Node} {fault : Fault} :
    node.Structured o → (node.fold scope).result = .error fault →
      scope.Fails node (node.fold scope).events fault
  | .array fits, run => by
    rw [fold_array] at run ⊢
    rcases Traced.result_bind_eq_error.mp run with inside | ⟨_, _, done⟩
    · obtain ⟨item, member, failed, kept⟩ := foldAll_eq_error inside
      exact ((fits item member).fold_fails failed).within (.within member .here)
        (List.Subset.trans kept (Traced.events_subset_bind _ _))
    · cases done
  | @Node.Structured.call _ name args _ fits, run => by
    cases bound : scope.functions name.text with
    | none =>
      rw [fold_call_undefined bound] at run
      cases run
      exact .undefined bound
    | some f =>
      rw [fold_call bound] at run ⊢
      rcases Traced.result_bind_eq_error.mp run with inside | ⟨values, done, failed⟩
      · obtain ⟨arg, member, failed, kept⟩ := foldAll_eq_error inside
        have occurs : arg.Occurs (.tree "call" [.leaf name, .tree "args" args]) :=
          .within (List.mem_cons_of_mem _ (List.mem_singleton.mpr rfl)) (.within member .here)
        exact ((fits arg member).fold_fails failed).within occurs
          (List.Subset.trans kept (Traced.events_subset_bind _ _))
      · exact (Scope.invoke_fails bound failed).within .here (Traced.next_events_subset_bind done _)

theorem Node.Fits.fold_fails {o : Options} {node : Node} {fault : Fault} :
    node.Fits o → (node.fold scope).result = .error fault →
      scope.Fails node (node.fold scope).events fault
  | .structured structured, run => structured.fold_fails run
  | @Node.Fits.string _ l string, run => by
    rw [fold, Leaf.fold, if_pos (show l.label = Leaf.stringLabel from string)] at run
    cases run
  | @Node.Fits.token _ t group _, run => by
    rw [fold] at run ⊢
    rcases t.fold_cases with ⟨x, _, _, looks⟩ | ⟨variable_, hidden, fails⟩ | ⟨plain, reads⟩
    · rw [looks] at run ⊢
      exact Scope.lookup_fails run
    · rw [fails] at run
      cases run
      exact .unwritable .here (Or.inl variable_) (Value.shown?_eq_none_iff.mp hidden)
    · rw [reads] at run ⊢
      refine Token.literal_fails (group.resolve_right fun same => ?_) run
      unfold Token.group at same
      cases kind : t.kind <;> simp_all [Kind.group]

end

/-- The folding of a structure never misses a child of it or meets a node of
another form, and blames no token but a malformed number. -/
theorem Scope.Fails.expected (fails : scope.Fails node events fault)
    (others : ∀ name f args, scope.functions name = some f → f args ≠ .error fault) :
    fault ≠ .missingChild ∧ fault ≠ .childless ∧
      (∀ expected found, fault ≠ .wrongShape expected found) ∧
      (∀ index length, fault ≠ .position index length) ∧
      ∀ cause blamed, fault = .parse cause blamed → ∃ t, blamed = some t ∧
        cause = .malformedNumeral t.kind t.value ∧ (Node.token t).Occurs node := by
  cases fails with
  | unbound _ => exact ⟨nofun, nofun, nofun, nofun, fun _ _ same => nomatch same⟩
  | undefined _ => exact ⟨nofun, nofun, nofun, nofun, fun _ _ same => nomatch same⟩
  | raised bound _ failed => exact absurd failed (others _ _ _ bound)
  | @malformed t occurs _ =>
    refine ⟨nofun, nofun, nofun, nofun, ?_⟩
    intro cause blamed same
    cases same
    exact ⟨t, rfl, rfl, occurs⟩
  | notNumeric _ _ _ => exact ⟨nofun, nofun, nofun, nofun, fun _ _ same => nomatch same⟩
  | overflow _ _ _ => exact ⟨nofun, nofun, nofun, nofun, fun _ _ same => nomatch same⟩
  | unwritable _ _ _ => exact ⟨nofun, nofun, nofun, nofun, fun _ _ same => nomatch same⟩

end Faults

/-- Every tree that is made of tokens is an array or a call with its parts in
place and, inside it, only such trees, literals, and tokens for values and
variables that are not passed over. So its parts can be taken, and folding it
fails only for what its names and its number tokens stand for, or where the
value of a variable or a truth value cannot be written. -/
theorem Stream.readNode_structured (tokens : List Token) (c : Nat) (shape : Shape) (o : Options)
    (depth : Int) (first : Token) :
    (∀ node, ((placed tokens c).buildNode shape o depth first).2.result = .ok node →
      node.hasShape shape = true ∧ node.Structured o) ∧
    (∀ node, ((placed tokens c).readNode o depth).2.result = .ok node → node.isTree = true →
      node.Structured o) ∧
    (∀ nodes, ((placed tokens c).readForest o depth).2.result = .ok nodes →
      ∀ node ∈ nodes, node.isTree = true → node.Structured o) ∧
    ∀ node : Node, node.Structured o →
      (∀ sub : Node, sub.Occurs node →
        (sub.hasShape .array = true → ∃ items, sub.arrayItems = .ok items) ∧
        (sub.hasShape .call = true →
          (∃ name, sub.callName = .ok name) ∧ ∃ args, sub.callArgs = .ok args)) ∧
      ∀ scope fault, (node.fold scope).result = .error fault →
        scope.Fails node (node.fold scope).events fault ∧
        ((∀ name f args, scope.functions name = some f → f args ≠ .error fault) →
          fault ≠ .missingChild ∧ fault ≠ .childless ∧
          (∀ expected found, fault ≠ .wrongShape expected found) ∧
          (∀ index length, fault ≠ .position index length) ∧
          ∀ cause blamed, fault = .parse cause blamed → ∃ t, blamed = some t ∧
            cause = .malformedNumeral t.kind t.value ∧ (Node.token t).Occurs node) := by
  refine ⟨?_, ?_, ?_, ?_⟩
  · intro node run
    rw [buildNode_placed] at run
    exact build_structured run
  · intro node run tree
    unfold readNode at run
    split at run
    · exact read_structured run tree
    · cases run
  · intro nodes run node member tree
    rw [readForest_placed] at run
    exact forest_structured run member tree
  · intro node structured
    refine ⟨fun sub occurs => structured.parts_of_occurs occurs, ?_⟩
    intro scope fault run
    have fails := structured.fold_fails run
    exact ⟨fails, fails.expected⟩

/-- An array of one plain token is read as it stands. -/
theorem Stream.buildNode_of_plain {t : Token} (plain : t.group = .value ∨ t.group = .variable) :
    ((placed [.bare .openSquare, t, .bare .closeSquare] 0).buildNode .array .standard 0
      (.bare .openSquare)).2.result = .ok (.array [.token t]) := by
  have found : Shape.array.locate .standard 0 (.bare .openSquare) [t, .bare .closeSquare] =
      .ok ⟨0, [t]⟩ := by
    obtain ⟨kind, value, position, line⟩ := t
    cases kind <;> first | rfl | simp [Token.group, Kind.group] at plain
  have seen : Options.standard.ignores t.group = false := by
    rcases plain with group | group <;> rw [group] <;> rfl
  have item : Element .standard 1 [t] (.token t) := .plain plain seen
  have items := Items.some (Options.skips_nil _) item (.last (Options.skips_nil _))
  rw [buildNode_placed]
  exact build_eq_ok_iff.mpr ⟨_, _, found, items.elements .array .first rfl fun _ => rfl, rfl, rfl⟩

/-- An array of one number token whose text is no number. -/
theorem Stream.readNode_structured_of_letter :
    (Node.array [.token ⟨.integer, .text "x", 1, 1⟩]).Structured .standard ∧
      (∃ items, (Node.array [.token ⟨.integer, .text "x", 1, 1⟩]).arrayItems = .ok items) ∧
      ∃ t, some (⟨.integer, .text "x", 1, 1⟩ : Token) = some t ∧
        Cause.malformedNumeral .integer (.text "x") = .malformedNumeral t.kind t.value ∧
        (Node.token t).Occurs (.array [.token ⟨.integer, .text "x", 1, 1⟩]) := by
  have whole := readNode_structured [.bare .openSquare, ⟨.integer, .text "x", 1, 1⟩, .bare .closeSquare]
    0 .array .standard 0 (.bare .openSquare)
  have structured := (whole.1 _ (buildNode_of_plain (.inl rfl))).2
  have after := whole.2.2.2 _ structured
  refine ⟨structured, (after.1 _ .here).1 rfl, ?_⟩
  exact ((after.2 ⟨fun _ => none, fun _ => none⟩
    (.blame (.malformedNumeral .integer (.text "x")) ⟨.integer, .text "x", 1, 1⟩) rfl).2 nofun).2.2.2.2 _ _ rfl

/-- A variable whose value is too long an integer is read in an array like any
other. In no scope does the array fold, as the name cannot be written. -/
theorem Stream.folded_oversized_name :
    ((placed [.bare .openSquare, .oversized .variable, .bare .closeSquare] 0).buildNode .array
        .standard 0 (.bare .openSquare)).2.result = .ok (.array [.token (.oversized .variable)]) ∧
      ∀ scope, ((Node.array [.token (.oversized .variable)]).fold scope).result =
        .error .unwritable := by
  refine ⟨buildNode_of_plain (.inr rfl), fun scope => ?_⟩
  have folded : (Token.oversized .variable).fold scope = .fail .unwritable :=
    Token.fold_unwritable rfl (Token.shown?_oversized .variable)
  rw [Node.array, Shape.label, Node.fold_array, Node.foldAll, Node.fold, folded]
  rfl

end RuleForest
