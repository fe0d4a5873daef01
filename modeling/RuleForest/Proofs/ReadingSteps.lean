import RuleForest.Proofs.LocatedExtent
import RuleForest.Reading

namespace RuleForest

namespace Traced

variable {α β : Type}

theorem result_bind_eq_ok {run : Traced α} {next : α → Traced β} {b : β} :
    (run >>= next).result = .ok b ↔ ∃ a, run.result = .ok a ∧ (next a).result = .ok b := by
  rcases run with ⟨events, fault | a⟩
  · simp [mk_error_bind]
  · simp [mk_ok_bind]

theorem result_bind_eq_error {run : Traced α} {next : α → Traced β} {fault : Fault} :
    (run >>= next).result = .error fault ↔
      run.result = .error fault ∨ ∃ a, run.result = .ok a ∧ (next a).result = .error fault := by
  rcases run with ⟨events, other | a⟩
  · simp [mk_error_bind]
  · simp [mk_ok_bind]

theorem succeeds_iff {run : Traced α} : run.succeeds = true ↔ ∃ a, run.result = .ok a := by
  rcases run with ⟨events, fault | a⟩ <;> simp [succeeds]

section Parts

variable {run : Traced α} {next : α → Traced β} {a : α} {fault : Fault}

theorem bind_of_ok (done : run.result = .ok a) :
    (run >>= next) = ⟨run.events ++ (next a).events, (next a).result⟩ := by
  rcases run with ⟨events, other | b⟩
  · cases done
  · cases done
    rfl

theorem bind_of_error (failed : run.result = .error fault) :
    (run >>= next) = ⟨run.events, .error fault⟩ := by
  rcases run with ⟨events, other | b⟩
  · cases failed
    rfl
  · cases failed

theorem log_bind_of_ok (done : run.result = .ok a) :
    (run >>= next).log = run.log ++ (next a).log := by
  rw [bind_of_ok done]
  exact List.filterMap_append

theorem calls_bind_of_ok (done : run.result = .ok a) :
    (run >>= next).calls = run.calls ++ (next a).calls := by
  rw [bind_of_ok done]
  exact List.filterMap_append

variable {parts : List β} {part : β → Traced γ}

theorem log_of_events (events : run.events = parts.flatMap fun b => (part b).events) :
    run.log = parts.flatMap fun b => (part b).log := by
  rw [log, events, List.filterMap_flatMap]
  rfl

theorem calls_of_events (events : run.events = parts.flatMap fun b => (part b).events) :
    run.calls = parts.flatMap fun b => (part b).calls := by
  rw [calls, events, List.filterMap_flatMap]
  rfl

end Parts

end Traced

/-- A token that is known by its kind alone. -/
def Token.bare (kind : Kind) : Token :=
  ⟨kind, .null, 0, 1⟩

/-- A token whose value is the least integer that is too long to be written. -/
def Token.oversized (kind : Kind) : Token :=
  ⟨kind, .int (Nat.pow 10 Numeral.maxDigits), 0, 1⟩

theorem Token.not_isWritable_oversized (kind : Kind) :
    (oversized kind).value.isWritable = false :=
  Numeral.isWritable_eq_false (Nat.le_of_eq (Int.natAbs_natCast _).symm)

theorem Token.shown?_oversized (kind : Kind) : (oversized kind).value.shown? = none :=
  Value.shown?_eq_none_iff.mpr (not_isWritable_oversized kind)

theorem Shape.not_isNamed_oversized (kind : Kind) : Shape.call.isNamed (.oversized kind) = false :=
  Token.not_isWritable_oversized kind

/-- The shape of the structure that a token of this kind begins. -/
def Kind.shape? : Kind → Option Shape
  | .openSquare => some .array
  | .function => some .call
  | _ => none

/-- The kind of the token that a structure of this shape begins with. -/
def Shape.head : Shape → Kind
  | .array => .openSquare
  | .call => .function

theorem Kind.shape?_eq_some_iff {kind : Kind} {shape : Shape} :
    kind.shape? = some shape ↔ kind = shape.head := by
  cases kind <;> cases shape <;> decide

/-- A token that begins a call whose name cannot be written. -/
def Token.LacksName (t : Token) : Prop :=
  t.kind = .function ∧ t.value.isWritable = false

theorem Token.lacksName_iff {t : Token} {shape : Shape} (begins : t.kind.shape? = some shape) :
    t.LacksName ↔ shape.isNamed t = false := by
  have kind := Kind.shape?_eq_some_iff.mp begins
  cases shape <;> simp [LacksName, Shape.isNamed, kind, Shape.head]

theorem Kind.starts_of_shape? {kind : Kind} {shape : Shape} (begins : kind.shape? = some shape) :
    kind ≠ .comma ∧ kind.startsElement = true := by
  rw [shape?_eq_some_iff.mp begins]
  cases shape <;> decide

theorem Shape.finish_of_named {shape : Shape} {first : Token} (named : shape.isNamed first = true)
    (events : List Event) (nodes : List Node) :
    shape.finish first ⟨events, .ok nodes⟩ =
      ⟨events ++ [shape.event first nodes.length], .ok (shape.node first nodes)⟩ := by
  rw [finish, Traced.mk_ok_bind, named]
  rfl

theorem Shape.finish_of_unnamed {shape : Shape} {first : Token}
    (unnamed : shape.isNamed first = false) (events : List Event) (nodes : List Node) :
    shape.finish first ⟨events, .ok nodes⟩ = ⟨events, .error .unwritable⟩ := by
  rw [finish, Traced.mk_ok_bind, unnamed]
  exact congrArg (Traced.mk · _) (List.append_nil events)

theorem Shape.finish_eq_ok_iff {shape : Shape} {first : Token} {items : Traced (List Node)}
    {node : Node} : (shape.finish first items).result = .ok node ↔
      ∃ xs, items.result = .ok xs ∧ shape.isNamed first = true ∧ node = shape.node first xs := by
  rcases items with ⟨events, fault | xs⟩
  · simp [finish, Traced.mk_error_bind]
  · cases named : shape.isNamed first with
    | true => simp [finish_of_named named, eq_comm]
    | false => simp [finish_of_unnamed named]

theorem Shape.finish_eq_error_iff {shape : Shape} {first : Token} {items : Traced (List Node)}
    {fault : Fault} :
    (shape.finish first items).result = .error fault ↔
      items.result = .error fault ∨
        (∃ xs, items.result = .ok xs) ∧ shape.isNamed first = false ∧ fault = .unwritable := by
  rcases items with ⟨events, other | xs⟩
  · simp [finish, Traced.mk_error_bind]
  · cases named : shape.isNamed first with
    | true => simp [finish_of_named named]
    | false => simp [finish_of_unnamed named, eq_comm]

/-- A structure is read exactly where it is located, its content is a list
and it can be named. The cursor then moves over the extent, whatever the
content. -/
theorem build_eq_ok_iff {shape : Shape} {o : Options} {depth : Int} {first : Token}
    {rest : List Token} {node : Node} :
    (build shape o depth first rest).outcome.result = .ok node ↔
      ∃ extent nodes, shape.locate o depth first rest = .ok extent ∧
        (elements shape o (depth + 1) .first extent.inner).result = .ok nodes ∧
        shape.isNamed first = true ∧ node = shape.node first nodes := by
  cases found : shape.locate o depth first rest with
  | error stop => simp [build_of_error found, Traced.fail]
  | ok extent => simp [build_of_ok found, Shape.finish_eq_ok_iff]

section Read

variable {o : Options} {depth : Int} {t : Token} {rest : List Token}

theorem read_of_string (string : t.kind = .string) :
    read o depth t rest = ⟨0, .ofExcept ((StringLiteral.leaf t).map .leaf)⟩ := by
  rw [read, string]

theorem read_of_shape {shape : Shape} (begins : t.kind.shape? = some shape) :
    read o depth t rest = build shape o depth t rest := by
  rw [read, Kind.shape?_eq_some_iff.mp begins]
  cases shape <;> rfl

theorem read_of_plain (plain : t.isComposite = false) :
    read o depth t rest = ⟨0, pure (.token t)⟩ := by
  rw [read]
  unfold Token.isComposite at plain
  cases kind : t.kind <;> simp only [kind, Kind.isComposite, reduceCtorEq] at plain <;> rfl

/-- A token is a string literal, begins a structure, or stands for itself. -/
theorem Token.cases_kind (t : Token) :
    t.kind = .string ∨ (∃ shape, t.kind.shape? = some shape) ∨ t.isComposite = false := by
  unfold Token.isComposite
  cases t.kind <;> simp [Kind.shape?, Kind.isComposite]

end Read

section Elements

variable {shape : Shape} {o : Options} {depth : Int} {slot : Slot} {t : Token} {rest : List Token}

theorem elements_nil_after (shape : Shape) (o : Options) (depth : Int) (comma : Token) :
    elements shape o depth (.after comma) [] = .fail (.blame (.trailingComma shape) comma) := by
  rw [elements]

theorem elements_nil (complete : ∀ comma, slot ≠ .after comma) :
    elements shape o depth slot [] = pure [] := by
  cases slot with
  | after comma => exact absurd rfl (complete comma)
  | first => rw [elements]
  | filled => rw [elements]

theorem elements_skip (ignored : o.ignores t.group = true) :
    elements shape o depth slot (t :: rest) = elements shape o depth slot rest := by
  rw [elements, if_pos ignored]

theorem elements_gap {gap : List Token} (skips : o.Skips gap) (rest : List Token) :
    elements shape o depth slot (gap ++ rest) = elements shape o depth slot rest := by
  induction gap with
  | nil => rfl
  | cons t gap ih =>
    obtain ⟨ignored, skips⟩ := List.forall_mem_cons.mp skips
    rw [List.cons_append, elements_skip ignored, ih skips]

theorem elements_comma (seen : o.ignores t.group = false) (comma : t.kind = .comma) :
    elements shape o depth slot (t :: rest) =
      if slot.isFilled then elements shape o depth (.after t) rest
      else .fail (.blame .unexpectedComma t) := by
  rw [elements, if_neg (by simp [seen]), if_pos comma]

theorem elements_unexpected (seen : o.ignores t.group = false) (comma : t.kind ≠ .comma)
    (starts : t.kind.startsElement = false) :
    elements shape o depth slot (t :: rest) = .fail (.blame (.unexpectedToken t.kind shape) t) := by
  rw [elements, if_neg (by simp [seen]), if_neg comma, if_pos (by simp [starts])]

theorem elements_missing (seen : o.ignores t.group = false) (comma : t.kind ≠ .comma)
    (starts : t.kind.startsElement = true) :
    elements shape o depth .filled (t :: rest) = .fail (.blame (.missingComma shape) t) := by
  rw [elements, if_neg (by simp [seen]), if_neg comma, if_neg (by simp [starts]),
    if_pos (by rfl)]

theorem elements_item (seen : o.ignores t.group = false) (comma : t.kind ≠ .comma)
    (starts : t.kind.startsElement = true) (free : slot.isFilled = false) :
    elements shape o depth slot (t :: rest) =
      (read o depth t rest).outcome >>= fun item =>
        elements shape o depth .filled (rest.drop (read o depth t rest).advances) >>= fun items =>
          pure (item :: items) := by
  rw [elements, if_neg (by simp [seen]), if_neg comma, if_neg (by simp [starts]),
    if_neg (by simp [free])]

end Elements

/-- A call without arguments fails or not by its name alone. -/
theorem build_without_args (first : Token) :
    build .call .standard 0 first [.bare .openParen, .bare .closeParen] =
      ⟨2, Shape.call.finish first ⟨[], .ok []⟩⟩ := by
  have located : Shape.call.locate .standard 0 first [.bare .openParen, .bare .closeParen] =
      .ok ⟨1, []⟩ := rfl
  rw [build_of_ok located, elements_nil (by simp)]
  rfl

/-- Reading a list goes from token to token. An element that is a structure
is read in full, its content included, before the tokens behind it. -/
theorem elements_induction (o : Options) {motive : Shape → Int → Slot → List Token → Prop}
    (nil : ∀ shape depth slot, motive shape depth slot [])
    (skip : ∀ shape depth slot t rest, o.ignores t.group = true →
      motive shape depth slot rest → motive shape depth slot (t :: rest))
    (comma : ∀ shape depth slot t rest, o.ignores t.group = false → t.kind = .comma →
      motive shape depth (.after t) rest → motive shape depth slot (t :: rest))
    (unexpected : ∀ shape depth slot t rest, o.ignores t.group = false → t.kind ≠ .comma →
      t.kind.startsElement = false → motive shape depth slot (t :: rest))
    (missing : ∀ shape depth t rest, o.ignores t.group = false → t.kind ≠ .comma →
      t.kind.startsElement = true → motive shape depth .filled (t :: rest))
    (item : ∀ shape depth slot t rest, o.ignores t.group = false → t.kind ≠ .comma →
      t.kind.startsElement = true → slot.isFilled = false →
      (∀ nested extent, t.kind.shape? = some nested → nested.locate o depth t rest = .ok extent →
        motive nested (depth + 1) .first extent.inner) →
      motive shape depth .filled (rest.drop (read o depth t rest).advances) →
      motive shape depth slot (t :: rest))
    (shape : Shape) (depth : Int) (slot : Slot) (tokens : List Token) :
    motive shape depth slot tokens := by
  induction length : tokens.length using Nat.strongRecOn generalizing shape depth slot tokens with
  | ind n ih =>
    subst length
    cases tokens with
    | nil => exact nil shape depth slot
    | cons t rest =>
      have shorter : rest.length < (t :: rest).length := Nat.lt_succ_self _
      cases ignored : o.ignores t.group with
      | true => exact skip _ _ _ t rest ignored (ih _ shorter _ _ _ rest rfl)
      | false =>
        by_cases separates : t.kind = .comma
        · exact comma _ _ _ t rest ignored separates (ih _ shorter _ _ _ rest rfl)
        cases starts : t.kind.startsElement with
        | false => exact unexpected _ _ _ t rest ignored separates starts
        | true =>
          cases free : slot.isFilled with
          | true =>
            cases slot <;> simp only [Slot.isFilled, reduceCtorEq] at free
            exact missing _ _ t rest ignored separates starts
          | false =>
            refine item _ _ _ t rest ignored separates starts free ?_ ?_
            · intro nested extent _ found
              have inside := Shape.length_inner_locate found
              exact ih _ (by omega) _ _ _ extent.inner rfl
            · have dropped := (rest.drop_sublist (read o depth t rest).advances).length_le
              exact ih _ (Nat.lt_succ_of_le dropped) _ _ _ _ rfl

/-- Reading a whole stream goes from node to node. -/
theorem forest_induction (o : Options) (depth : Int) {motive : List Token → Prop} (nil : motive [])
    (node : ∀ t rest, motive (rest.drop (read o depth t rest).advances) → motive (t :: rest))
    (tokens : List Token) : motive tokens :=
  forest.induct o depth motive nil node tokens

theorem forest_cons {o : Options} {depth : Int} {t : Token} {rest : List Token} {node : Node}
    {nodes : List Node} (run : (read o depth t rest).outcome.result = .ok node)
    (behind : (forest o depth (rest.drop (read o depth t rest).advances)).outcome.result =
      .ok nodes) :
    (forest o depth (t :: rest)).outcome.result = .ok (node :: nodes) := by
  rw [forest]
  refine Traced.result_bind_eq_ok.mpr ⟨node, run, ?_⟩
  exact Traced.result_bind_eq_ok.mpr ⟨nodes, behind, rfl⟩

end RuleForest
