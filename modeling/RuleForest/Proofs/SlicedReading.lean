import RuleForest.Proofs.CursorAfterReading
import RuleForest.Proofs.StructureLevels
import RuleForest.Session

namespace RuleForest

section Begins

variable {o : Options} {shape : Shape} {t : Token} {lead gap : List Token}

/-- Whether a structure begins with the token where an element may stand. -/
def Options.begins (o : Options) (t : Token) : Bool :=
  !o.ignores t.group && t.kind.shape?.isSome

theorem Options.begins_of_ignored (ignored : o.ignores t.group = true) : o.begins t = false := by
  rw [begins, ignored]
  rfl

theorem Options.begins_of_other (other : t.kind.shape? = none) : o.begins t = false := by
  rw [begins, other]
  exact Bool.and_false _

theorem Token.shape?_of_plain (plain : t.isComposite = false) : t.kind.shape? = none := by
  unfold Token.isComposite at plain
  cases kind : t.kind <;> simp_all [Kind.isComposite, Kind.shape?]

theorem Options.begins_of_shape (seen : o.ignores t.group = false)
    (first : t.kind.shape? = some shape) : o.begins t = true := by
  rw [begins, seen, first]
  rfl

theorem Options.Skips.countP_begins (skips : o.Skips gap) : gap.countP o.begins = 0 := by
  refine List.countP_eq_zero.mpr fun t member => ?_
  rw [Options.begins_of_ignored (skips t member)]
  exact Bool.false_ne_true

theorem Lead.countP_begins (leads : Lead o shape lead) : lead.countP o.begins = 0 := by
  cases leads with
  | array => rfl
  | call skips opens _ =>
    rw [List.countP_append, skips.countP_begins, List.countP_singleton,
      Options.begins_of_other (by rw [opens]; rfl)]
    rfl

theorem Shape.begins_closer (closes : t.kind = shape.closer) : o.begins t = false := by
  refine Options.begins_of_other ?_
  rw [closes]
  cases shape <;> rfl

end Begins

section Runs

variable {α β : Type} {run : Traced α} {next : α → Traced β} {events : List Event} {b : β}

theorem Traced.bind_eq_ok_iff : (run >>= next) = ⟨events, .ok b⟩ ↔
    ∃ a first later, run = ⟨first, .ok a⟩ ∧ next a = ⟨later, .ok b⟩ ∧ events = first ++ later := by
  rcases run with ⟨first, fault | a⟩
  · simp [mk_error_bind]
  · rw [mk_ok_bind]
    cases following : next a with
    | mk later result => simp [following, eq_comm, and_comm]

end Runs

/-- A structure of a run of tokens, which `k` others begin before. From its
first token it is read alone as it was read in the run, whatever follows the
run. Its records stand together in those of the run, behind one for each of
the `k` that do not enclose it. -/
inductive Options.ReadAlone (o : Options) (base : Int) (level k : Nat) :
    List Token → List Event → Nat × Node → Prop
  | intro {before t after shape steps front own back l node} : before.countP o.begins = k →
      t.kind.shape? = some shape → o.ignores t.group = false → steps ≤ after.length →
      front.length + l = k + level →
      (∀ behind, build shape o (base + (l : Nat)) t (after ++ behind) = ⟨steps, own, .ok node⟩) →
      ReadAlone o base level k (before ++ t :: after) (front ++ own ++ back) (l, node)

/-- A run of tokens with its records and its structures, from left to right:
each is begun once, recorded once, and read alone as in the run. -/
structure Options.Nests (o : Options) (base : Int) (level : Nat) (tokens : List Token)
    (events : List Event) (structures : List (Nat × Node)) : Prop where
  begun : tokens.countP o.begins = structures.length
  recorded : events.length = structures.length
  alone : ∀ k p, structures[k]? = some p → o.ReadAlone base level k tokens events p

section Nests

variable {o : Options} {base depth : Int} {level outer k : Nat} {shape : Shape} {slot : Slot}
  {t first : Token} {tokens rest before after : List Token} {events front back : List Event}
  {p : Nat × Node} {node : Node} {nodes : List Node} {structures more : List (Nat × Node)}
  {extent : Extent}

/-- Tokens and records in front count as those of structures that begin
before, and those behind do not matter. -/
theorem Options.ReadAlone.surround (alone : o.ReadAlone base level k tokens events p)
    {before : List Token} {front : List Event}
    (place : front.length + level = before.countP o.begins + outer) (after : List Token)
    (back : List Event) :
    o.ReadAlone base outer (before.countP o.begins + k) (before ++ tokens ++ after)
      (front ++ events ++ back) p := by
  cases alone with
  | @intro ahead t inside shape steps earlier own later l node count begins seen within same runs =>
    have whole : before ++ (ahead ++ t :: inside) ++ after =
        (before ++ ahead) ++ t :: (inside ++ after) := by simp
    have records : front ++ (earlier ++ own ++ later) ++ back =
        (front ++ earlier) ++ own ++ (later ++ back) := by simp
    rw [whole, records]
    have longer : steps ≤ (inside ++ after).length := by
      rw [List.length_append]
      omega
    refine .intro ?_ begins seen longer ?_ fun behind => ?_
    · rw [List.countP_append, count]
    · rw [List.length_append]
      omega
    · rw [List.append_assoc, runs]

theorem Options.Nests.none (empty : tokens.countP o.begins = 0) : o.Nests base level tokens [] [] where
  begun := empty
  recorded := rfl
  alone := by simp

theorem Options.Nests.append (first : o.Nests base level before front structures)
    (second : o.Nests base level after back more) :
    o.Nests base level (before ++ after) (front ++ back) (structures ++ more) where
  begun := by rw [List.countP_append, List.length_append, first.begun, second.begun]
  recorded := by rw [List.length_append, List.length_append, first.recorded, second.recorded]
  alone k p found := by
    by_cases inside : k < structures.length
    · rw [List.getElem?_append_left inside] at found
      have place : ([] : List Event).length + level = ([] : List Token).countP o.begins + level := rfl
      have alone := (first.alone k p found).surround place after back
      simpa using alone
    · rw [List.getElem?_append_right (Nat.not_lt.mp inside)] at found
      have place : front.length + level = before.countP o.begins + level := by
        rw [first.recorded, first.begun]
      have alone := (second.alone _ p found).surround place [] []
      rw [first.begun, Nat.add_sub_cancel' (Nat.not_lt.mp inside)] at alone
      simpa using alone

/-- A structure begins before those in it, and is recorded behind them. -/
theorem Options.Nests.enclose (begins : first.kind.shape? = some shape)
    (seen : o.ignores first.group = false) (place : depth = base + level)
    (located : shape.locate o depth first rest = .ok extent) (named : shape.isNamed first = true)
    (content : elements shape o (depth + 1) .first extent.inner = ⟨events, .ok nodes⟩)
    (inside : o.Nests base (level + 1) extent.inner events (Node.structuresAll (level + 1) nodes)) :
    o.Nests base level (first :: rest.take extent.advances)
      (events ++ [shape.event first nodes.length]) ((shape.node first nodes).structures level) := by
  obtain ⟨lead, closer, after, leads, closes, rfl, advances, exchange⟩ := Shape.locate_split located
  have taken : (lead ++ extent.inner ++ closer :: after).take extent.advances =
      lead ++ extent.inner ++ [closer] := by
    rw [advances, List.take_length_add_append]
    rfl
  have opening : (first :: lead).countP o.begins = 1 := by
    rw [List.countP_cons, leads.countP_begins, Options.begins_of_shape seen begins]
    rfl
  rw [taken, Node.structures_node]
  refine ⟨?_, ?_, fun k p found => ?_⟩
  · rw [← List.cons_append, ← List.cons_append, List.countP_append, List.countP_append, opening,
      inside.begun, List.countP_singleton, Shape.begins_closer closes, List.length_cons, if_neg nofun]
    omega
  · rw [List.length_append, inside.recorded]
    rfl
  · cases k with
    -- Number zero is the structure itself, and the others are those of its content, one place on.
    | zero =>
      cases found
      have within : extent.advances ≤ (lead ++ extent.inner ++ [closer]).length := by
        simp only [advances, List.length_append, List.length_singleton, Nat.le_refl]
      have runs (behind : List Token) :
          build shape o (base + (level : Nat)) first ((lead ++ extent.inner ++ [closer]) ++ behind) =
            ⟨extent.advances, events ++ [shape.event first nodes.length],
              .ok (shape.node first nodes)⟩ := by
        rw [List.append_assoc, List.singleton_append, ← place, build_of_ok (exchange behind), content,
          Shape.finish_of_named named]
      have alone := @Options.ReadAlone.intro o base level 0 [] _ _ _ _ [] _ [] level _ rfl begins seen
        within rfl runs
      simpa using alone
    | succ k =>
      rw [List.getElem?_cons_succ] at found
      have deeper : ([] : List Event).length + (level + 1) =
          (first :: lead).countP o.begins + level := by
        rw [opening, List.length_nil]
        omega
      have alone := (inside.alone k p found).surround deeper [closer] [shape.event first nodes.length]
      rw [opening, Nat.add_comm] at alone
      simpa using alone

theorem build_eq_mk_ok (run : (build shape o depth first rest).outcome = ⟨events, .ok node⟩) :
    ∃ extent inner nodes, shape.locate o depth first rest = .ok extent ∧
      elements shape o (depth + 1) .first extent.inner = ⟨inner, .ok nodes⟩ ∧
      shape.isNamed first = true ∧ events = inner ++ [shape.event first nodes.length] ∧
      node = shape.node first nodes := by
  cases located : shape.locate o depth first rest with
  | error stop =>
    rw [build_of_error located] at run
    cases run
  | ok extent =>
    rw [build_of_ok located] at run
    rcases content : elements shape o (depth + 1) .first extent.inner with ⟨inner, fault | nodes⟩
    · rw [content] at run
      cases run
    · rw [content] at run
      cases named : shape.isNamed first with
      | false =>
        rw [Shape.finish_of_unnamed named] at run
        cases run
      | true =>
        rw [Shape.finish_of_named named] at run
        cases run
        exact ⟨extent, inner, nodes, rfl, content, rfl, rfl, rfl⟩

/-- The structures of a node are read alone as in it, if those of its content
are. -/
theorem read_nests (seen : o.ignores t.group = false) (place : depth = base + level)
    (run : (read o depth t rest).outcome = ⟨events, .ok node⟩)
    (contents : ∀ nested extent, t.kind.shape? = some nested →
      nested.locate o depth t rest = .ok extent → ∀ inner nodes,
        elements nested o (depth + 1) .first extent.inner = ⟨inner, .ok nodes⟩ →
        o.Nests base (level + 1) extent.inner inner (Node.structuresAll (level + 1) nodes)) :
    o.Nests base level (t :: rest.take (read o depth t rest).advances) events
      (node.structures level) := by
  rcases t.cases_kind with string | ⟨nested, begins⟩ | plain
  · have other : o.begins t = false := Options.begins_of_other (by rw [string]; rfl)
    rw [read_of_string string] at run ⊢
    cases literal : StringLiteral.leaf t with
    | error fault =>
      rw [literal] at run
      cases run
    | ok leaf =>
      rw [literal] at run
      cases run
      exact .none (by simp [other])
  · rw [read_of_shape begins] at run ⊢
    obtain ⟨extent, inner, nodes, located, content, named, rfl, rfl⟩ := build_eq_mk_ok run
    rw [build_of_ok located]
    exact .enclose begins seen place located named content (contents nested extent begins located _ _ content)
  · have other : o.begins t = false := Options.begins_of_other (Token.shape?_of_plain plain)
    rw [read_of_plain plain] at run ⊢
    cases run
    exact .none (by simp [other])

/-- The structures in a list are read alone as in it. -/
theorem elements_nests (place : depth = base + level)
    (run : elements shape o depth slot tokens = ⟨events, .ok nodes⟩) :
    o.Nests base level tokens events (Node.structuresAll level nodes) := by
  induction shape, depth, slot, tokens using elements_induction o generalizing level events nodes with
  | nil shape depth slot =>
    cases slot with
    | after comma =>
      rw [elements_nil_after] at run
      cases run
    | first =>
      rw [elements_nil (by simp)] at run
      cases run
      exact .none rfl
    | filled =>
      rw [elements_nil (by simp)] at run
      cases run
      exact .none rfl
  | skip shape depth slot t rest ignored ih =>
    rw [elements_skip ignored] at run
    have single : [t].countP o.begins = 0 := by simp [Options.begins_of_ignored ignored]
    exact (Options.Nests.none single).append (ih place run)
  | comma shape depth slot t rest seen comma ih =>
    rw [elements_comma seen comma] at run
    split at run
    · have single : [t].countP o.begins = 0 := by
        simp [Options.begins_of_other (o := o) (t := t) (by rw [comma]; rfl)]
      exact (Options.Nests.none single).append (ih place run)
    · cases run
  | unexpected shape depth slot t rest seen comma starts =>
    rw [elements_unexpected seen comma starts] at run
    cases run
  | missing shape depth t rest seen comma starts =>
    rw [elements_missing seen comma starts] at run
    cases run
  | item shape depth slot t rest seen comma starts free inside ih =>
    rw [elements_item seen comma starts free] at run
    obtain ⟨node, here, _, reads, behind, rfl⟩ := Traced.bind_eq_ok_iff.mp run
    obtain ⟨others, there, _, further, done, rfl⟩ := Traced.bind_eq_ok_iff.mp behind
    cases done
    -- The element is over before the later ones: it has begun and recorded all of its structures.
    have one := read_nests seen place reads fun nested extent begins located inner nodes content =>
      inside nested extent begins located (by omega) content
    have whole := one.append (ih place further)
    rw [List.cons_append, List.take_append_drop] at whole
    rwa [List.append_nil]

end Nests

section Slices

variable {o : Options} {depth : Int} {shape : Shape} {first closer : Token}
  {tokens lead inner : List Token} {c b j : Nat} {node : Node}

/-- How a structure is read is settled by the tokens up to its closer. -/
theorem build_of_enclosed (depth : Int) (first : Token) (leads : Lead o shape lead)
    (enclosing : ∀ others, shape.enclosed 0 (inner ++ closer :: others) = some inner) :
    ∃ steps outcome, steps ≤ lead.length + (inner.length + 1) ∧
      ∀ others, build shape o depth first (lead ++ (inner ++ closer :: others)) = ⟨steps, outcome⟩ := by
  by_cases deep : o.maxDepth ≤ depth
  · refine ⟨0, .fail (.blame (.tooDeep shape o.maxDepth) first), Nat.zero_le _, fun others => ?_⟩
    rw [build_of_error (Shape.locate_of_deep deep ..)]
  · refine ⟨lead.length + (inner.length + 1),
      shape.finish first (elements shape o (depth + 1) .first inner), Nat.le_refl _, fun others => ?_⟩
    have located := Shape.locate_of_lead (Int.not_le.mp deep) leads first (inner ++ closer :: others)
    rw [enclosing] at located
    rw [build_of_ok located]
    rfl

/-- The same of a structure that is known by the places of its brackets. -/
theorem Shape.OpensAt.slice (opens : shape.OpensAt o tokens c b) (closes : shape.CloserAt tokens b j)
    (depth : Int) (first : Token) :
    c < j ∧ j < tokens.length ∧ ∃ steps outcome, c + steps ≤ j ∧
      ∀ after, RuleForest.build shape o depth first ((tokens.take (j + 1)).drop (c + 1) ++ after) =
        ⟨steps, outcome⟩ := by
  obtain ⟨lead, leads, whole, rfl⟩ := opens.split
  obtain ⟨inner, enclosing, rfl, within, _⟩ := closes.split
  obtain ⟨closer, after, _, behind, exchange⟩ := Shape.enclosed_split enclosing
  obtain ⟨steps, outcome, bound, runs⟩ := build_of_enclosed depth first leads exchange
  refine ⟨by omega, within, steps, outcome, by omega, fun others => ?_⟩
  have part : (tokens.take (c + lead.length + (inner.length + 1) + 1)).drop (c + 1) =
      lead ++ (inner ++ [closer]) := by
    have count : c + lead.length + (inner.length + 1) + 1 - (c + 1) =
        lead.length + (inner.length + 1) := by omega
    rw [List.drop_take, count, whole, behind, List.take_length_add_append, List.take_length_add_append]
    rfl
  rw [part, ← runs others]
  simp

/-- The tokens before the content of a structure end on its opening bracket. -/
theorem Lead.opensAt {content : List Token} (leads : Lead o shape lead)
    (whole : tokens.drop (c + 1) = lead ++ content) : shape.OpensAt o tokens c (c + lead.length) := by
  cases leads with
  | array => exact .array
  | @call gap opener skips opens seen =>
    have visible : o.ignores opener.group = false := by rwa [Token.group, opens]
    have spans : Spans tokens c (c + (gap ++ [opener]).length) (gap ++ [opener]) :=
      (spans_iff (by simp)).mpr ⟨content, whole, rfl⟩
    exact .call ⟨visible, gap, skips, spans⟩ opens

/-- A structure that is read leaves the cursor on its own closer. -/
theorem build_closerAt
    (run : (build shape o depth first (tokens.drop (c + 1))).outcome.result = .ok node) :
    ∃ b, shape.OpensAt o tokens c b ∧
      shape.CloserAt tokens b (c + (build shape o depth first (tokens.drop (c + 1))).advances) := by
  obtain ⟨extent, nodes, located, _, _⟩ := build_eq_ok_iff.mp run
  obtain ⟨_, lead, content, leads, whole, length, enclosing⟩ := Shape.locate_eq_ok_iff.mp located
  obtain ⟨j, closes, taken⟩ := Shape.enclosed_eq_some_iff.mp enclosing
  have count : extent.inner.length = j := by
    rw [taken, List.length_take, Nat.min_eq_left (Nat.le_of_lt closes.within)]
  have behind : tokens.drop (c + lead.length + 1) = content := by
    rw [Nat.add_right_comm, ← List.drop_drop, whole, List.drop_left]
  have place : c + extent.advances - (c + lead.length + 1) = j := by
    rw [Extent.advances, length, count]
    omega
  refine ⟨c + lead.length, leads.opensAt whole, ?_⟩
  rw [build_of_ok located]
  refine ⟨?_, ?_⟩
  · simp only [Extent.advances, length]
    omega
  · rw [behind, place]
    exact closes

/-- A structure that is read is recorded once for each structure in it. -/
theorem build_recorded {rest : List Token} {events : List Event}
    (run : (build shape o depth first rest).outcome = ⟨events, .ok node⟩) :
    events.length = (node.structures 0).length := by
  obtain ⟨extent, inner, nodes, _, content, _, rfl, rfl⟩ := build_eq_mk_ok run
  have inside := @elements_nests _ depth _ 1 _ _ _ _ _ rfl content
  rw [Node.structures_node, List.length_append, inside.recorded]
  rfl

end Slices

/-- The reader stands on the stream, with these options and at this depth.
Its variables and functions are free. -/
def Session.Reads (session : Session) (s : Stream) (o : Options) (depth : Int) : Prop :=
  session.stream = s ∧ session.frame.options = o ∧ session.frame.depth = depth

theorem Session.Reads.readNode {session : Session} {s : Stream} {o : Options} {depth : Int}
    (reads : session.Reads s o depth) : session.readNode = s.readNode o depth := by
  obtain ⟨rfl, rfl, rfl⟩ := reads
  rfl

namespace Stream

/-- The tokens from place `c` up to `j` with others around them, and the
cursor on the first of them. -/
def moved (before after tokens : List Token) (c j : Nat) : Stream :=
  placed (before ++ ((tokens.take (j + 1)).drop c ++ after)) before.length

theorem readNode_of_shape {tokens : List Token} {c : Nat} {shape : Shape} {first : Token}
    {o : Options} {depth : Int} (found : tokens[c]? = some first)
    (begins : first.kind.shape? = some shape) :
    (placed tokens c).readNode o depth = (placed tokens c).buildNode shape o depth first := by
  rw [readNode_placed found, buildNode_placed, read_of_shape begins]

/-- A structure begins on the token `t` at place `p`, has its own closer at
`q`, and is read from its first token with this outcome. -/
structure ReadsAt (tokens : List Token) (o : Options) (depth : Int) (shape : Shape) (p q : Nat)
    (t : Token) (outcome : Traced Node) : Prop where
  first : tokens[p]? = some t
  seen : o.ignores t.group = false
  begins : t.kind.shape? = some shape
  brackets : ∃ b, shape.OpensAt o tokens p b ∧ shape.CloserAt tokens b q
  run : (placed tokens p).buildNode shape o depth t = (placed tokens q, outcome)

section Moved

variable {o : Options} {depth : Int} {shape : Shape} {first : Token} {tokens : List Token}
  {c b j : Nat}

theorem moved_getElem? (opens : shape.OpensAt o tokens c b) (closes : shape.CloserAt tokens b j)
    (before after : List Token) :
    (before ++ ((tokens.take (j + 1)).drop c ++ after))[before.length]? = tokens[c]? := by
  obtain ⟨ahead, within, _⟩ := opens.slice closes 0 default
  rw [List.getElem?_append_right (Nat.le_refl _), Nat.sub_self,
    List.getElem?_append_left (by rw [List.length_drop, List.length_take]; omega), List.getElem?_drop,
    List.getElem?_take_of_lt (by omega), Nat.add_zero]

/-- What stands around a structure does not matter to how it is read, and how
far that takes the cursor. -/
theorem buildNode_moved (opens : shape.OpensAt o tokens c b) (closes : shape.CloserAt tokens b j)
    (depth : Int) (first : Token) (before after : List Token) :
    ((moved before after tokens c j).buildNode shape o depth first).2 =
        ((placed tokens c).buildNode shape o depth first).2 ∧
      ((moved before after tokens c j).buildNode shape o depth first).1.index -
          (moved before after tokens c j).index =
        ((placed tokens c).buildNode shape o depth first).1.index - (placed tokens c).index := by
  obtain ⟨ahead, within, steps, outcome, bound, runs⟩ := opens.slice closes depth first
  have rest : tokens.drop (c + 1) = (tokens.take (j + 1)).drop (c + 1) ++ tokens.drop (j + 1) := by
    rw [← List.drop_append_of_le_length (by rw [List.length_take]; omega), List.take_append_drop]
  have part : (before ++ ((tokens.take (j + 1)).drop c ++ after)).drop (before.length + 1) =
      (tokens.take (j + 1)).drop (c + 1) ++ after := by
    rw [← List.drop_drop, List.drop_left,
      List.drop_append_of_le_length (by rw [List.length_drop, List.length_take]; omega), List.drop_drop]
  have room : before.length + (j + 1 - c) ≤
      (before ++ ((tokens.take (j + 1)).drop c ++ after)).length := by
    rw [List.length_append, List.length_append, List.length_drop, List.length_take]
    omega
  rw [moved, buildNode_placed, buildNode_placed, part, rest, runs, runs]
  refine ⟨rfl, ?_⟩
  simp only
  rw [index_placed_of_le (by omega) (by omega), index_placed_of_le (by omega) (by omega),
    index_placed_of_le (by omega) (by omega), index_placed_of_le (by omega) (by omega)]
  omega

/-- A structure that is read alone in a run of tokens is read so where the
run stands in a stream. -/
theorem ReadsAt.of_readAlone {lead run rest : List Token} {events : List Event} {k l level : Nat}
    {sub : Node} (alone : o.ReadAlone depth level k run events (l, sub)) (leads : Lead o shape lead)
    (whole : tokens.drop (c + 1) = lead ++ run ++ rest) :
    ∃ p q t nested front own back, ReadsAt tokens o (depth + (l : Nat)) nested p q t ⟨own, .ok sub⟩ ∧
      c < p ∧ ((tokens.take p).drop (c + 1)).countP o.begins = k ∧
      q ≤ c + (lead ++ run).length ∧
      events = front ++ own ++ back ∧ front.length + l = k + level ∧
      own.length = (sub.structures 0).length := by
  cases alone with
  | @intro before t inside nested steps front own back l node count begins seen bound same runs =>
    have split : tokens.drop (c + 1) = (lead ++ before) ++ t :: (inside ++ rest) := by
      rw [whole]
      simp
    obtain ⟨p, place⟩ : ∃ p, p = c + 1 + (lead ++ before).length := ⟨_, rfl⟩
    have behind : tokens.drop p = t :: (inside ++ rest) := by
      rw [place, ← List.drop_drop, split, List.drop_left]
    have here : build nested o (depth + (l : Nat)) t (tokens.drop (p + 1)) = ⟨steps, own, .ok sub⟩ := by
      have after : tokens.drop (p + 1) = inside ++ rest := drop_of_cons behind 0
      rw [after]
      exact runs rest
    have brackets := build_closerAt (congrArg (·.outcome.result) here)
    rw [here] at brackets
    have reads : ReadsAt tokens o (depth + (l : Nat)) nested p (p + steps) t ⟨own, .ok sub⟩ := by
      refine ⟨?_, seen, begins, brackets, ?_⟩
      · exact getElem?_of_cons behind
      · rw [buildNode_placed, here]
    have ahead : ((tokens.take p).drop (c + 1)).countP o.begins = k := by
      have length : p - (c + 1) = (lead ++ before).length := by omega
      rw [List.drop_take, length, split, List.take_left, List.countP_append, leads.countP_begins, count,
        Nat.zero_add]
    refine ⟨p, p + steps, t, nested, front, own, back, reads, by omega, ahead, ?_, rfl, same,
      build_recorded (congrArg Reading.outcome here)⟩
    simp only [List.length_append, List.length_cons] at place ⊢
    omega

/-- A structure in another one is read from its place in the stream as it
was read in there. -/
theorem buildNode_nested {events : List Event} {node sub : Node} {k l : Nat}
    (run : ((placed tokens c).buildNode shape o depth first).2 = ⟨events, .ok node⟩)
    (found : (node.structures 0)[k + 1]? = some (l, sub)) :
    ∃ p q t nested front own back, ReadsAt tokens o (depth + (l : Nat)) nested p q t ⟨own, .ok sub⟩ ∧
      c < p ∧ ((tokens.take p).drop (c + 1)).countP o.begins = k ∧
      (q : Nat) < ((placed tokens c).buildNode shape o depth first).1.index ∧
      events = front ++ own ++ back ∧ front.length + l = k + 1 ∧
      own.length = (sub.structures 0).length := by
  rw [buildNode_placed] at run ⊢
  obtain ⟨extent, inner, nodes, located, content, _, rfl, rfl⟩ := build_eq_mk_ok run
  obtain ⟨lead, closer, after, leads, _, whole, advances, _⟩ := Shape.locate_split located
  rw [Node.structures_node, List.getElem?_cons_succ] at found
  have alone := (@elements_nests _ depth _ 1 _ _ _ _ _ rfl content).alone k _ found
  obtain ⟨p, q, t, nested, front, own, back, reads, behind, count, within, rfl, rest⟩ :=
    ReadsAt.of_readAlone alone leads whole
  have length := congrArg List.length whole
  rw [List.length_drop, List.length_append, List.length_cons] at length
  refine ⟨p, q, t, nested, front, own, back ++ [shape.event first nodes.length], reads, behind, count, ?_,
    List.append_assoc .., rest⟩
  rw [build_of_ok located]
  simp only [advances]
  rw [index_placed_of_le (by omega) (by omega)]
  omega

end Moved

/-- Reading structures from slices of the tokens cannot be told from reading
them where they stand. What stands before a structure and behind its closer
does not matter to it, and neither do variables. Once a structure is read,
each one in it is read from its own place at its own depth with the same
result, up to its own closer, and with the records that it left. As many
structures begin before that place as stand before it in the result, and its
records stand behind those of the finished ones among these. -/
theorem buildNode_of_slice (tokens : List Token) (c : Nat) (shape : Shape) (o : Options)
    (depth : Int) (first : Token) :
    (∀ b j, shape.OpensAt o tokens c b → shape.CloserAt tokens b j → ∀ before after,
      ((moved before after tokens c j).buildNode shape o depth first).2 =
        ((placed tokens c).buildNode shape o depth first).2 ∧
      ((moved before after tokens c j).buildNode shape o depth first).1.index -
          (moved before after tokens c j).index =
        ((placed tokens c).buildNode shape o depth first).1.index - (placed tokens c).index ∧
      (tokens[c]? = some first → first.kind.shape? = some shape → ∀ session other : Session,
        session.Reads (placed tokens c) o depth → other.Reads (moved before after tokens c j) o depth →
          other.readNode.2 = session.readNode.2 ∧
          other.readNode.1.index - other.stream.index =
            session.readNode.1.index - session.stream.index)) ∧
    ∀ events node, ((placed tokens c).buildNode shape o depth first).2 = ⟨events, .ok node⟩ →
      ∀ k l sub, (node.structures 0)[k + 1]? = some (l, sub) →
        ∃ p q t nested front own back,
          ReadsAt tokens o (depth + (l : Nat)) nested p q t ⟨own, .ok sub⟩ ∧
          c < p ∧ ((tokens.take p).drop (c + 1)).countP o.begins = k ∧
          (q : Nat) < ((placed tokens c).buildNode shape o depth first).1.index ∧
          events = front ++ own ++ back ∧ front.length + l = k + 1 ∧
          own.length = (sub.structures 0).length := by
  refine ⟨fun b j opens closes before after => ?_, fun events node run k l sub found =>
    buildNode_nested run found⟩
  obtain ⟨same, steps⟩ := buildNode_moved opens closes depth first before after
  refine ⟨same, steps, fun here begins session other reads moves => ?_⟩
  have there : (moved before after tokens c j).readNode o depth =
      (moved before after tokens c j).buildNode shape o depth first :=
    readNode_of_shape ((moved_getElem? opens closes before after).trans here) begins
  rw [reads.readNode, moves.readNode, reads.1, moves.1, there, readNode_of_shape here begins]
  exact ⟨same, steps⟩

/-- An array in an array, between other brackets and beside other variables,
and in its own place. -/
theorem buildNode_of_slice_arrays :
    ((moved [.bare .closeSquare] [.bare .openSquare] [.bare .openSquare, .bare .openSquare,
        .bare .closeSquare, .bare .closeSquare] 0 3).buildNode .array .standard 0 (.bare .openSquare)).2 =
      ⟨[.array 0 0, .array 0 1], .ok (.array [.array []])⟩ ∧
    (Session.mk (moved [.bare .closeSquare] [.bare .openSquare] [.bare .openSquare, .bare .openSquare,
        .bare .closeSquare, .bare .closeSquare] 0 3) (fun _ => none) { bindings := fun _ => some .null }
        []).readNode.2 =
      (Session.mk (placed [.bare .openSquare, .bare .openSquare, .bare .closeSquare, .bare .closeSquare]
        0) (fun _ => none) {} []).readNode.2 ∧
    ∃ p q t shape, ReadsAt [.bare .openSquare, .bare .openSquare, .bare .closeSquare,
      .bare .closeSquare] .standard 1 shape p q t ⟨[.array 0 0], .ok (.array [])⟩ := by
  have located : Shape.array.locate .standard 0 (.bare .openSquare) [.bare .openSquare,
      .bare .closeSquare, .bare .closeSquare] = .ok ⟨0, [.bare .openSquare, .bare .closeSquare]⟩ := rfl
  have inner : read .standard 1 (.bare .openSquare) [.bare .closeSquare] =
      ⟨1, [.array 0 0], .ok (.array [])⟩ := by
    rw [@read_of_shape _ _ _ _ .array rfl,
      @build_of_ok .array .standard 1 _ [.bare .closeSquare] ⟨0, []⟩ rfl, elements_nil (by simp)]
    rfl
  have content : elements .array .standard 1 .first [.bare .openSquare, .bare .closeSquare] =
      ⟨[.array 0 0], .ok [.array []]⟩ := by
    rw [elements_item rfl (by decide) rfl rfl, inner, List.drop_one, List.tail_cons,
      elements_nil (by simp)]
    rfl
  have run : ((placed [.bare .openSquare, .bare .openSquare, .bare .closeSquare, .bare .closeSquare]
      0).buildNode .array .standard 0 (.bare .openSquare)).2 =
        ⟨[.array 0 0, .array 0 1], .ok (.array [.array []])⟩ := by
    rw [buildNode_placed]
    change (build .array .standard 0 (.bare .openSquare) [.bare .openSquare, .bare .closeSquare,
      .bare .closeSquare]).outcome = _
    rw [build_of_ok located]
    change Shape.array.finish _ (elements .array .standard 1 .first _) = _
    rw [content]
    rfl
  have both := buildNode_of_slice [.bare .openSquare, .bare .openSquare, .bare .closeSquare,
    .bare .closeSquare] 0 .array .standard 0 (.bare .openSquare)
  obtain ⟨same, _, sessions⟩ := both.1 0 3 .array ⟨by decide, by decide, by decide, by decide⟩
    [.bare .closeSquare] [.bare .openSquare]
  refine ⟨same.trans run, (sessions rfl rfl _ _ ⟨rfl, rfl, rfl⟩ ⟨rfl, rfl, rfl⟩).1, ?_⟩
  obtain ⟨p, q, t, nested, front, own, back, reads, _, _, _, whole, count, length⟩ :=
    both.2 _ _ run 0 1 (.array []) rfl
  obtain rfl : front = [] := List.eq_nil_of_length_eq_zero (by omega)
  obtain ⟨event, rfl⟩ := List.length_eq_one_iff.mp length
  cases whole
  exact ⟨p, q, t, nested, reads⟩

end Stream

end RuleForest
