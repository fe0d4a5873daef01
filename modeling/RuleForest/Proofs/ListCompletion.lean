import RuleForest.Proofs.DerivedReading

namespace RuleForest

/-- The tokens complete a list of which a part is read. -/
def Slot.Accepts (o : Options) (depth : Int) (slot : Slot) (tokens : List Token) : Prop :=
  ∃ nodes, slot.Derives o depth tokens nodes

/-- The tokens can be continued to such ones. -/
def Slot.Completable (o : Options) (depth : Int) (slot : Slot) (tokens : List Token) : Prop :=
  ∃ more, slot.Accepts o depth (tokens ++ more)

/-- Reading some tokens takes a list from one slot to another, and nothing
but the new slot decides which tokens complete it then. -/
def Slot.Reads (o : Options) (depth : Int) (slot : Slot) (passed : List Token) (next : Slot) :
    Prop :=
  ∀ rest, slot.Accepts o depth (passed ++ rest) ↔ next.Accepts o depth rest

/-- Once an element is read, there is one that may be read again. -/
def Slot.Supported (o : Options) (depth : Int) (slot : Slot) : Prop :=
  slot ≠ .first → ∃ tokens node, Element o depth tokens node

section Slots

variable {o : Options} {depth : Int} {slot next : Slot} {t : Token} {passed : List Token}

theorem Slot.accepts_iff (shape : Shape) {tokens : List Token} :
    slot.Accepts o depth tokens ↔ (elements shape o depth slot tokens).succeeds = true := by
  simp only [Traced.succeeds_iff, elements_eq_ok_iff, Accepts]

theorem Slot.reads_nil (slot : Slot) : slot.Reads o depth [] slot :=
  fun _ => Iff.rfl

theorem Slot.Reads.append {last : Slot} {more : List Token} (first : slot.Reads o depth passed next)
    (second : next.Reads o depth more last) : slot.Reads o depth (passed ++ more) last := by
  intro rest
  rw [List.append_assoc, first, second]

theorem Slot.reads_skip (ignored : o.ignores t.group = true) : slot.Reads o depth [t] slot := by
  intro rest
  rw [List.singleton_append, accepts_iff .array, elements_skip ignored, ← accepts_iff]

theorem Slot.reads_comma (seen : o.ignores t.group = false) (comma : t.kind = .comma) :
    Slot.filled.Reads o depth [t] (.after t) := by
  intro rest
  rw [List.singleton_append, accepts_iff .array, elements_comma seen comma, if_pos (by rfl),
    ← accepts_iff]

theorem Slot.reads_item {node : Node} (free : slot.isFilled = false)
    (element : Element o depth passed node) : slot.Reads o depth passed .filled := by
  intro rest
  constructor
  · intro accepts
    obtain ⟨t, first, rfl, reads⟩ := element.read
    obtain ⟨nodes, run⟩ := Traced.succeeds_iff.mp ((accepts_iff .array).mp accepts)
    rw [List.cons_append, elements_item reads.seen reads.comma reads.starts free, reads.advances,
      List.drop_left] at run
    obtain ⟨_, _, behind⟩ := Traced.result_bind_eq_ok.mp run
    obtain ⟨others, later, _⟩ := Traced.result_bind_eq_ok.mp behind
    exact ⟨others, elements_derives later⟩
  · rintro ⟨nodes, derives⟩
    exact ⟨node :: nodes, derives.item free element⟩

theorem Slot.Reads.completable (reads : slot.Reads o depth passed next) {tokens : List Token} :
    slot.Completable o depth (passed ++ tokens) ↔ next.Completable o depth tokens := by
  simp only [Completable, List.append_assoc, reads _]

theorem Slot.supported_first : Slot.first.Supported o depth :=
  fun started => absurd rfl started

/-- A list can be completed at any slot that reading leads to. Behind a comma
this takes an element, such as one that was read before. -/
theorem Slot.Supported.completable (supported : slot.Supported o depth) :
    slot.Completable o depth [] := by
  cases slot with
  | first => exact ⟨[], [], Items.none o.skips_nil⟩
  | filled => exact ⟨[], [], More.last o.skips_nil⟩
  | after comma =>
    obtain ⟨tokens, node, element⟩ := supported (by simp)
    have items := Items.some o.skips_nil element (More.last o.skips_nil)
    exact ⟨tokens, [node], List.cons_ne_nil _ _, by simpa using items⟩

end Slots

/-- What stands behind the first token of a structure that is read in full:
its opening, a list, and its closer. -/
inductive Shape.Body (o : Options) (depth : Int) (shape : Shape) : List Token → Prop
  | enclose {lead inner closer nodes} : Lead o shape lead → Items o (depth + 1) inner nodes →
      closer.kind = shape.closer → Body o depth shape (lead ++ inner ++ [closer])

/-- Every name among the tokens that is not passed over can be written. -/
def Options.Named (o : Options) (tokens : List Token) : Prop :=
  ∀ t ∈ tokens, o.ignores t.group = false → ¬ t.LacksName

theorem Options.Named.mono {o : Options} {tokens others : List Token} (named : o.Named others)
    (within : tokens ⊆ others) : o.Named tokens :=
  fun t member => named t (within member)

theorem Options.Named.head {o : Options} {shape : Shape} {first : Token} {rest : List Token}
    (named : o.Named (first :: rest)) (begins : first.kind.shape? = some shape)
    (seen : o.ignores first.group = false) : shape.isNamed first = true := by
  rw [← Bool.not_eq_false, ← Token.lacksName_iff begins]
  exact named first List.mem_cons_self seen

section Bodies

variable {o : Options} {depth : Int} {shape : Shape} {first : Token}

/-- A list that can be completed can be closed then. -/
theorem Shape.body_of_completable {lead tokens : List Token} (leads : Lead o shape lead)
    (completable : Slot.first.Completable o (depth + 1) tokens) :
    ∃ more, shape.Body o depth (lead ++ tokens ++ more) := by
  obtain ⟨more, nodes, items⟩ := completable
  refine ⟨more ++ [.bare shape.closer], ?_⟩
  have body : shape.Body o depth (lead ++ (tokens ++ more) ++ [.bare shape.closer]) :=
    .enclose leads items rfl
  simpa using body

/-- Reading a structure that can be named, and whose brackets are not passed
over, succeeds on a body, whatever follows. -/
theorem Shape.Body.succeeds {body : List Token} (whole : shape.Body o depth body)
    (seen : o.ignores shape.group = false) (shallow : depth < o.maxDepth)
    (named : shape.isNamed first = true) (after : List Token) :
    (build shape o depth first (body ++ after)).outcome.succeeds = true := by
  cases whole with
  | @enclose lead inner closer nodes leads items closes =>
    have found := items.located seen shallow leads closes first after
    have run : (elements shape o (depth + 1) .first inner).result = .ok nodes :=
      elements_eq_ok_iff.mpr items
    exact Traced.succeeds_iff.mpr ⟨_, build_eq_ok_iff.mpr ⟨_, nodes, found, run, named, rfl⟩⟩

theorem Shape.Body.element {body : List Token} (whole : shape.Body o depth body)
    (begins : first.kind.shape? = some shape) (seen : o.ignores first.group = false)
    (shallow : depth < o.maxDepth) (named : shape.isNamed first = true) :
    ∃ node, Element o depth (first :: body) node := by
  cases whole with
  | enclose leads items closes => exact ⟨_, .nested begins shallow named seen leads items closes⟩

/-- A list can be completed within an element of it. -/
theorem Shape.Body.completable {tokens more : List Token} (whole : shape.Body o depth (tokens ++ more))
    (begins : first.kind.shape? = some shape) (seen : o.ignores first.group = false)
    (shallow : depth < o.maxDepth) (named : shape.isNamed first = true) {slot : Slot}
    (free : slot.isFilled = false) : slot.Completable o depth (first :: tokens) := by
  obtain ⟨node, element⟩ := whole.element begins seen shallow named
  have derives := Slot.Derives.item free element (More.last o.skips_nil)
  exact ⟨more, [node], by simpa using derives⟩

/-- While no token closes the structure, it is read further only if its list
can be completed. -/
theorem Shape.completable_of_succeeds {lead passed rest more other : List Token}
    (shallow : depth < o.maxDepth) (leads : Lead o shape lead)
    (unclosed : shape.enclosed 0 (passed ++ rest) = some (passed ++ more))
    (succeeds : (build shape o depth first (lead ++ (passed ++ other))).outcome.succeeds = true) :
    Slot.first.Completable o (depth + 1) passed := by
  obtain ⟨node, run⟩ := Traced.succeeds_iff.mp succeeds
  obtain ⟨extent, nodes, found, content, _⟩ := build_eq_ok_iff.mp run
  rw [locate_of_lead shallow leads] at found
  cases enclosing : shape.enclosed 0 (passed ++ other) with
  | none =>
    rw [enclosing] at found
    cases found
  | some inner =>
    rw [enclosing] at found
    cases found
    obtain ⟨tail, rfl⟩ := enclosed_extends unclosed enclosing
    exact ⟨tail, nodes, elements_derives content⟩

end Bodies

end RuleForest
