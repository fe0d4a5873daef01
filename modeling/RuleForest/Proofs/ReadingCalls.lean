import RuleForest.Proofs.ReadingSteps

namespace RuleForest

namespace Traced

variable {α β : Type}

theorem calls_bind {run : Traced α} {next : α → Traced β} (first : run.calls = [])
    (later : ∀ a, run.result = .ok a → (next a).calls = []) : (run >>= next).calls = [] := by
  rcases run with ⟨events, fault | a⟩
  · exact first
  · rw [mk_ok_bind, calls, List.filterMap_append]
    exact List.append_eq_nil_iff.mpr ⟨first, later a rfl⟩

end Traced

theorem Shape.finish_calls {shape : Shape} {first : Token} {items : Traced (List Node)}
    (silent : items.calls = []) : (shape.finish first items).calls = [] := by
  refine Traced.calls_bind silent fun nodes _ => ?_
  split
  · refine Traced.calls_bind ?_ fun _ _ => rfl
    cases shape <;> rfl
  · rfl

section Calls

variable {o : Options} {depth : Int} {t : Token} {rest : List Token}

/-- Reading a node invokes nothing if its content is read without invoking. -/
theorem read_calls_of_contents
    (contents : ∀ nested extent, t.kind.shape? = some nested →
      nested.locate o depth t rest = .ok extent →
      (elements nested o (depth + 1) .first extent.inner).calls = []) :
    (read o depth t rest).outcome.calls = [] := by
  rcases t.cases_kind with string | ⟨nested, begins⟩ | plain
  · rw [read_of_string string]
    rfl
  · rw [read_of_shape begins]
    cases found : nested.locate o depth t rest with
    | error stop =>
      rw [build_of_error found]
      rfl
    | ok extent =>
      rw [build_of_ok found]
      exact Shape.finish_calls (contents nested extent begins found)
  · rw [read_of_plain plain]
    rfl

theorem elements_calls (shape : Shape) (o : Options) (depth : Int) (slot : Slot)
    (tokens : List Token) : (elements shape o depth slot tokens).calls = [] := by
  induction shape, depth, slot, tokens using elements_induction o with
  | nil shape depth slot =>
    cases slot with
    | after comma =>
      rw [elements_nil_after]
      rfl
    | first =>
      rw [elements_nil (by simp)]
      rfl
    | filled =>
      rw [elements_nil (by simp)]
      rfl
  | skip shape depth slot t rest ignored ih => rwa [elements_skip ignored]
  | comma shape depth slot t rest seen comma ih =>
    rw [elements_comma seen comma]
    split
    · exact ih
    · rfl
  | unexpected shape depth slot t rest seen comma starts =>
    rw [elements_unexpected seen comma starts]
    rfl
  | missing shape depth t rest seen comma starts =>
    rw [elements_missing seen comma starts]
    rfl
  | item shape depth slot t rest seen comma starts free inside behind =>
    rw [elements_item seen comma starts free]
    refine Traced.calls_bind (read_calls_of_contents inside) fun item _ => ?_
    exact Traced.calls_bind behind fun items _ => rfl

/-- Reading a node invokes no function. -/
theorem read_calls (o : Options) (depth : Int) (t : Token) (rest : List Token) :
    (read o depth t rest).outcome.calls = [] :=
  read_calls_of_contents fun nested extent _ _ => elements_calls nested o (depth + 1) .first extent.inner

/-- Reading a whole stream invokes no function. -/
theorem forest_calls (o : Options) (depth : Int) (tokens : List Token) :
    (forest o depth tokens).outcome.calls = [] := by
  induction tokens using forest_induction o depth with
  | nil =>
    rw [forest]
    rfl
  | node t rest others =>
    rw [forest]
    refine Traced.calls_bind (read_calls o depth t rest) fun node _ => ?_
    exact Traced.calls_bind others fun nodes _ => rfl

end Calls

end RuleForest
