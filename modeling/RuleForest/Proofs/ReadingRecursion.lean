import RuleForest.Proofs.ReaderEquations
import RuleForest.Proofs.RecordOrder

namespace RuleForest

/-- Whether a structure begins with the token, wherever it stands. -/
def Token.begins (t : Token) : Bool :=
  t.kind.shape?.isSome

/-- The tokens behind its first one that reading a structure passes. -/
def Visit.passed (o : Options) (v : Visit) : List Token :=
  v.rest.take (v.reading o).advances

/-- The tokens that reading all nodes passes, and the one that it ends on if
there is a fault. -/
def Options.ranged (o : Options) (depth : Int) (tokens : List Token) : List Token :=
  tokens.take ((forest o depth tokens).advances + 1)

section Ranges

variable {o : Options} {depth : Int} {t : Token} {rest : List Token} {v w : Visit} {extent : Extent}

theorem Token.begins_of_shape? {nested : Shape} (begins : t.kind.shape? = some nested) :
    t.begins = true := by
  rw [Token.begins, begins]
  rfl

/-- The content of a structure is among the tokens that reading it passes. -/
theorem Visit.inner_sublist (located : v.shape.locate o v.depth v.first v.rest = .ok extent) :
    extent.inner.Sublist (v.passed o) := by
  obtain ⟨_, lead, content, _, whole, length, enclosing⟩ := Shape.locate_eq_ok_iff.mp located
  obtain ⟨closer, after, _, rfl, _⟩ := Shape.enclosed_split enclosing
  have regroup : lead ++ (extent.inner ++ closer :: after) =
      (lead ++ extent.inner ++ [closer]) ++ after := by simp
  rw [passed, reading, build_of_ok located, whole, regroup,
    List.take_left' (by simp [Extent.advances, length, Nat.add_assoc]), List.append_assoc]
  exact (List.sublist_append_left ..).trans (List.sublist_append_right ..)

/-- A structure that is come upon in another one has fewer structures begin
in it, since it begins there itself. -/
theorem Visit.Meets.countP_lt (meets : v.Meets o w) :
    (w.passed o).countP Token.begins < (v.passed o).countP Token.begins := by
  obtain ⟨extent, located, before, next, whole, _, _, _, begins, _, _⟩ := meets
  have inner := (Visit.inner_sublist located).countP_le (p := Token.begins)
  have part := (List.take_sublist (w.reading o).advances w.rest).countP_le (p := Token.begins)
  rw [whole, List.countP_append, List.countP_cons_of_pos (Token.begins_of_shape? begins)] at inner
  rw [← Visit.passed] at part
  omega

/-- Structures that are read while the one before is still being read. There
are no more of them than structures begin in the first. -/
theorem Visit.length_nested {nested : List Visit} (chain : List.IsChain (Visit.Meets o) (v :: nested)) :
    nested.length ≤ (v.passed o).countP Token.begins := by
  induction nested generalizing v with
  | nil => exact Nat.zero_le _
  | cons w nested ih =>
    obtain ⟨meets, chain⟩ := List.isChain_cons_cons.mp chain
    have fewer := meets.countP_lt
    have bound := ih chain
    rw [List.length_cons]
    omega

/-- The first node of a stream is in what reading all of them passes. -/
theorem Options.ranged_here :
    (t :: rest.take (read o depth t rest).advances).Sublist (o.ranged depth (t :: rest)) := by
  rw [ranged, forest, List.take_succ_cons]
  exact (List.take_sublist_take_left (Nat.le_add_right _ _)).cons_cons t

/-- What is passed behind a node that is read is passed by reading all. -/
theorem Options.ranged_behind (done : (read o depth t rest).outcome.succeeds = true) :
    (o.ranged depth (rest.drop (read o depth t rest).advances)).Sublist
      (o.ranged depth (t :: rest)) := by
  have total : (forest o depth (t :: rest)).advances + 1 = (read o depth t rest).advances + 1 +
      ((forest o depth (rest.drop (read o depth t rest).advances)).advances + 1) := by
    rw [forest]
    simp only [done, if_true]
    omega
  have cut (more : Nat) : (t :: rest).take ((read o depth t rest).advances + 1 + more) =
      (t :: rest).take ((read o depth t rest).advances + 1) ++
        (rest.drop (read o depth t rest).advances).take more := by
    rw [List.take_add, List.drop_succ_cons]
  rw [ranged, ranged, total, cut]
  exact List.sublist_append_right ..

end Ranges

namespace Stream

section Collected

variable {o : Options} {shape : Shape} {depth : Int} {first : Token} {tokens nested : List Token}
  {c : Nat} {opened closed : Stream}

/-- What is collected from a cursor on is what the brackets behind it enclose. -/
theorem locate_collected (shallow : depth < o.maxDepth)
    (opens : (placed tokens c).seekOpener shape o first = (opened, .ok ()))
    (collects : opened.collect shape first 1 = (closed, .ok nested)) :
    ∃ lead, shape.locate o depth first (tokens.drop (c + 1)) = .ok ⟨lead, nested⟩ := by
  rcases shape.lead_cases o (tokens.drop (c + 1)) with ⟨lead, content, leads, whole⟩ |
    ⟨rfl, skips⟩ | ⟨rfl, gap, t, after, whole, skips, seen, other⟩
  · have behind : tokens.drop (c + lead.length + 1) = content := by
      rw [Nat.add_right_comm, ← List.drop_drop, whole, List.drop_left]
    rw [seekOpener_of_lead leads first whole] at opens
    cases opens
    have scanned := @collect_placed tokens content (c + lead.length) shape first 0 behind
    rw [Nat.zero_add, collects] at scanned
    cases enclosing : shape.enclosed 0 content with
    | none =>
      rw [enclosing] at scanned
      cases scanned
    | some inner =>
      rw [enclosing] at scanned
      cases scanned
      exact ⟨_, Shape.locate_eq_ok_iff.mpr ⟨shallow, lead, content, leads, whole, rfl, enclosing⟩⟩
  · rw [seekOpener, seekParen_placed o first rfl, Shape.lead_of_skips skips] at opens
    cases opens
  · rw [seekOpener, seekParen_placed o first whole, Shape.lead_call skips seen, if_neg other] at opens
    cases opens

/-- A nested stream is shorter than what is left of the stream around it. -/
theorem length_collected (opens : (placed tokens c).seekOpener shape o first = (opened, .ok ()))
    (collects : opened.collect shape first 1 = (closed, .ok nested)) :
    nested.length < (tokens.drop c).length := by
  obtain ⟨lead, located⟩ :=
    locate_collected (Int.sub_lt_self o.maxDepth Int.one_pos) opens collects
  have shorter : nested.length < (tokens.drop (c + 1)).length := Shape.length_inner_locate located
  rw [List.length_drop] at shorter ⊢
  omega

end Collected

section Progress

variable {o : Options} {depth : Int} {tokens rest : List Token} {c : Nat} {node : Node} {t : Token}
  {shape : Shape}

/-- A node that is read leaves the cursor on a token, at which the next step
moves it on, and not before the place where it was. -/
theorem readNode_progress (run : ((placed tokens c).readNode o depth).2.result = .ok node) :
    ((placed tokens c).readNode o depth).1.valid = true ∧
      (placed tokens c).index ≤ ((placed tokens c).readNode o depth).1.index ∧
      ((placed tokens c).readNode o depth).1.index <
        ((placed tokens c).readNode o depth).1.next.index := by
  cases here : (placed tokens c).current with
  | error fault =>
    rw [readNode, here] at run
    cases run
  | ok t =>
    have found := current_placed_iff.mp here
    have within := (List.getElem?_eq_some_iff.mp found).1
    rw [readNode_placed found] at run ⊢
    have far := (read_madeFrom run).1
    rw [List.length_drop] at far
    refine ⟨?_, ?_, ?_⟩
    · rw [valid_placed, decide_eq_true_eq]
      omega
    · rw [index_placed_of_le (by omega) (by omega), index_placed_of_le (by omega) (by omega)]
      omega
    · rw [next_placed, index_placed_of_le (by omega) (by omega),
        index_placed_of_le (by omega) (by omega)]
      omega

/-- Each structure that reading all nodes begins with is in what it passes. -/
theorem Starts.countP_lt {starts : List Nat} (begun : Starts tokens o depth c starts) {p : Nat}
    (member : p ∈ starts) (found : tokens[p]? = some t) (begins : t.kind.shape? = some shape) :
    ((Visit.start tokens p shape depth t).passed o).countP Token.begins <
      (o.ranged depth (tokens.drop c)).countP Token.begins := by
  have here {c : Nat} (found : tokens[c]? = some t) :
      ((Visit.start tokens c shape depth t).passed o).countP Token.begins <
        (o.ranged depth (tokens.drop c)).countP Token.begins := by
    obtain ⟨within, atPlace⟩ := List.getElem?_eq_some_iff.mp found
    have part := (@Options.ranged_here o depth t (tokens.drop (c + 1))).countP_le (p := Token.begins)
    rw [List.countP_cons_of_pos (Token.begins_of_shape? begins), read_of_shape begins] at part
    rw [List.drop_eq_getElem_cons within, atPlace]
    exact part
  induction begun with
  | done => cases member
  | last =>
    obtain rfl := List.mem_singleton.mp member
    exact here found
  | @next c j starts within succeeds index _ ih =>
    rcases List.mem_cons.mp member with rfl | later
    · exact here found
    · have reading := readNode_placed (List.getElem?_eq_getElem within) o depth
      rw [reading] at succeeds index
      obtain ⟨node, run⟩ := Traced.succeeds_iff.mp succeeds
      have far := (read_madeFrom run).1
      rw [List.length_drop] at far
      rw [index_placed_of_le (by omega) (by omega)] at index
      have place : j + 1 = c + 1 + (RuleForest.read o depth tokens[c] (tokens.drop (c + 1))).advances := by
        omega
      have behind := (Options.ranged_behind succeeds).countP_le (p := Token.begins)
      rw [List.drop_drop, ← place, ← List.drop_eq_getElem_cons within] at behind
      exact Nat.lt_of_lt_of_le (ih later) behind

end Progress

namespace Readers

section Unrolled

variable {o : Options} {f : Nat → Readers} {shape : Shape} {depth : Int} {slot : Slot}
  {first : Token} {tokens rest : List Token} {c k levels : Nat}

/-- A structure is read right if the lists that are nested in it are. -/
theorem build_of_lists (runs : ∀ k, Runs o (f k) (f (k + 1)))
    (few : ((Visit.start tokens c shape depth first).passed o).countP Token.begins < levels)
    (lists : ∀ nested : List Token, nested.length < (tokens.drop c).length →
      nested.countP Token.begins < levels →
      (f levels).list shape (depth + 1) .first (ofList nested) =
        elements shape o (depth + 1) .first nested) :
    (f levels).build shape depth first (placed tokens c) =
      (placed tokens c).buildNode shape o depth first := by
  obtain ⟨k, rfl⟩ : ∃ k, levels = k + 1 := ⟨levels - 1, by omega⟩
  rw [(runs k).build]
  refine buildBody_eq fun shallow opened closed nested opens collects => ?_
  obtain ⟨lead, located⟩ := locate_collected shallow opens collects
  have inside : nested.Sublist ((Visit.start tokens c shape depth first).passed o) :=
    @Visit.inner_sublist o (.start tokens c shape depth first) _ located
  have fewer := inside.countP_le (p := Token.begins)
  exact lists nested (length_collected opens collects) (by omega)

/-- A node is read right if the lists nested in it are, one level below. The
token that it begins with pays for the level. -/
theorem node_of_lists (runs : ∀ k, Runs o (f k) (f (k + 1)))
    (few : ∀ t, tokens[c]? = some t → (t :: (tokens.drop (c + 1)).take
      (RuleForest.read o depth t (tokens.drop (c + 1))).advances).countP Token.begins < k + 1)
    (lists : ∀ shape (nested : List Token), nested.length < (tokens.drop c).length →
      nested.countP Token.begins < k →
      (f k).list shape (depth + 1) .first (ofList nested) =
        elements shape o (depth + 1) .first nested) :
    (f (k + 1)).node depth (placed tokens c) = (placed tokens c).readNode o depth := by
  rw [(runs k).node]
  refine nodeBody_eq fun nested t here begins => ?_
  have passed := few t (current_placed_iff.mp here)
  rw [List.countP_cons_of_pos (Token.begins_of_shape? begins), read_of_shape begins] at passed
  exact build_of_lists runs (Nat.lt_of_succ_lt_succ passed) (lists nested)

/-- Lists are read right once the levels are more than the tokens that begin
a structure. The induction is on the tokens from the cursor on: a step of the
loop leaves fewer of them, and a nested stream has fewer. -/
theorem list_unrolled (runs : ∀ k, Runs o (f k) (f (k + 1)))
    (few : (tokens.drop c).countP Token.begins < levels) :
    (f levels).list shape depth slot (placed tokens c) =
      elements shape o depth slot (tokens.drop c) := by
  induction left : (tokens.drop c).length using Nat.strongRecOn
    generalizing tokens c levels shape depth slot with
  | ind m ih =>
    subst left
    obtain ⟨k, rfl⟩ : ∃ k, levels = k + 1 := ⟨levels - 1, by omega⟩
    rw [(runs k).list]
    refine listBody_eq (node_of_lists runs (fun t found => ?_) fun inner nested shorter fewer => ?_)
      fun within slot later ahead => ?_
    · obtain ⟨within, atPlace⟩ := List.getElem?_eq_some_iff.mp found
      have part := ((List.take_sublist (RuleForest.read o depth t (tokens.drop (c + 1))).advances
        (tokens.drop (c + 1))).cons_cons t).countP_le (p := Token.begins)
      rw [List.drop_eq_getElem_cons within, atPlace] at few
      omega
    · exact @ih nested.length shorter _ _ _ nested 0 k fewer rfl
    -- The loop goes on at the same level, since its steps open nothing further.
    · have shorter : (tokens.drop later).length < (tokens.drop c).length := by
        rw [List.length_drop, List.length_drop]
        omega
      have part := (List.drop_sublist_drop_left tokens (Nat.le_of_lt ahead)).countP_le
        (p := Token.begins)
      exact ih _ shorter (by omega) rfl

theorem build_unrolled (runs : ∀ k, Runs o (f k) (f (k + 1)))
    (few : ((Visit.start tokens c shape depth first).passed o).countP Token.begins < levels) :
    (f levels).build shape depth first (placed tokens c) =
      (placed tokens c).buildNode shape o depth first :=
  build_of_lists runs few fun nested _ fewer => @list_unrolled _ _ _ _ _ nested 0 _ runs fewer

theorem node_unrolled (runs : ∀ k, Runs o (f k) (f (k + 1))) (positive : 0 < levels)
    (few : ∀ t, tokens[c]? = some t → (t :: (tokens.drop (c + 1)).take
      (RuleForest.read o depth t (tokens.drop (c + 1))).advances).countP Token.begins < levels) :
    (f levels).node depth (placed tokens c) = (placed tokens c).readNode o depth := by
  obtain ⟨k, rfl⟩ : ∃ k, levels = k + 1 := ⟨levels - 1, by omega⟩
  exact node_of_lists runs few fun _ nested _ fewer =>
    @list_unrolled _ _ _ _ _ nested 0 _ runs fewer

/-- A failed node ends the stream, so that nothing behind it is counted. -/
theorem nodes_unrolled (runs : ∀ k, Runs o (f k) (f (k + 1))) (behind : tokens.drop c = rest)
    (few : (o.ranged depth rest).countP Token.begins < levels) :
    (f levels).nodes depth (placed tokens c) = (placed tokens c).follow (forest o depth rest) := by
  obtain ⟨k, rfl⟩ : ∃ k, levels = k + 1 := ⟨levels - 1, by omega⟩
  induction rest using forest_induction o depth generalizing c with
  | nil =>
    rw [(runs k).nodes, nodesBody, if_neg (by simp [valid_placed_of_nil behind]), forest]
    rfl
  | node t rest ih =>
    rw [(runs k).nodes, ← behind]
    refine nodesBody_eq (node_unrolled runs (Nat.succ_pos k) fun u found => ?_)
      fun u after split done => ?_
    · have same : u = t := Option.some.inj (found.symm.trans (getElem?_of_cons behind))
      have part := (@Options.ranged_here o depth t rest).countP_le (p := Token.begins)
      rw [same, drop_of_cons behind 0, List.drop_zero]
      omega
    · rw [behind] at split
      cases split
      have part := (Options.ranged_behind done).countP_le (p := Token.begins)
      exact ih (drop_of_cons behind _) (by omega)

end Unrolled

/-- The readers that go through the tokens on a cursor. -/
def walking (o : Options) : Readers where
  node depth s := s.readNode o depth
  build shape depth first s := s.buildNode shape o depth first
  list shape depth slot s := s.walkElements shape o depth slot
  nodes depth s := s.walkNodes o depth

theorem walking_agrees (o : Options) : (walking o).Agrees o where
  node _ _ _ := rfl
  build _ _ _ _ _ := rfl
  list shape depth slot _ _ := walkElements_placed shape o depth slot rfl
  nodes depth tokens c := by
    rw [follow, advance_placed]
    exact walkNodes_placed o depth rfl

/-- Readers that satisfy the equations by themselves have as many levels as
any tokens need. -/
theorem runs_iff {o : Options} {f : Readers} : Runs o f f ↔ f.Agrees o := by
  refine ⟨fun runs => ?_, Agrees.runs⟩
  have levels : ∀ k : Nat, Runs o ((fun _ => f) k) ((fun _ => f) (k + 1)) := fun _ => runs
  constructor
  · intro depth tokens c
    rw [runs.node]
    exact nodeBody_eq fun nested t here _ => build_unrolled levels (Nat.lt_succ_self _)
  · intro shape depth first tokens c
    exact build_unrolled levels (Nat.lt_succ_self _)
  · intro shape depth slot tokens c
    exact list_unrolled levels (Nat.lt_succ_self _)
  · intro depth tokens c
    exact nodes_unrolled levels rfl (Nat.lt_succ_self _)

end Readers

/-- Reading ends on its own, whatever the nesting limit is. A nested stream is
shorter than the tokens from the cursor on of the stream that it is taken
from, and a node that is read leaves the cursor on a token that is not before
the place where it was, so that the step behind it moves the cursor on. So the
equations of the program have one solution, which is what the library computes.
Structures are open within one another at most one more than structures begin
in the tokens that are passed, and with so many levels of calls it makes no
difference what one level more would do. -/
theorem reading_terminates (tokens : List Token) (c : Nat) (shape : Shape) (o : Options)
    (depth : Int) (first : Token) :
    let s := placed tokens c
    let root := Visit.start tokens c shape depth first
    (∀ opened closed nested, s.seekOpener shape o first = (opened, .ok ()) →
      opened.collect shape first 1 = (closed, .ok nested) →
      nested.length < (tokens.drop c).length) ∧
    (∀ node, (s.readNode o depth).2.result = .ok node →
      (s.readNode o depth).1.valid = true ∧ s.index ≤ (s.readNode o depth).1.index ∧
        (s.readNode o depth).1.index < (s.readNode o depth).1.next.index) ∧
    (∃ f, Readers.Runs o f f) ∧ (∀ f, Readers.Runs o f f ↔ f.Agrees o) ∧
    (∀ nested, List.IsChain (Visit.Meets o) (root :: nested) →
      (root :: nested).length ≤ (root.passed o).countP Token.begins + 1) ∧
    (∀ starts, Starts tokens o depth 0 starts → ∀ p ∈ starts, ∀ t inner nested,
      tokens[p]? = some t → t.kind.shape? = some inner →
      List.IsChain (Visit.Meets o) (Visit.start tokens p inner depth t :: nested) →
      (Visit.start tokens p inner depth t :: nested).length ≤
        (o.ranged depth tokens).countP Token.begins) ∧
    ∀ f : Nat → Readers, (∀ k, Readers.Runs o (f k) (f (k + 1))) → ∀ levels,
      ((root.passed o).countP Token.begins < levels →
        (f levels).build shape depth first s = s.buildNode shape o depth first) ∧
      ((o.ranged depth tokens).countP Token.begins < levels →
        (f levels).nodes depth s.rewind = s.readForest o depth) := by
  intro s root
  refine ⟨fun opened closed nested => length_collected, fun node => readNode_progress,
    ⟨_, (Readers.walking_agrees o).runs⟩, fun f => Readers.runs_iff, fun nested chain => ?_,
    fun starts begin p member t inner nested found begins chain => ?_, fun f runs levels => ?_⟩
  · have bound := Visit.length_nested chain
    rw [List.length_cons]
    exact Nat.succ_le_succ bound
  · have bound := Visit.length_nested chain
    have fewer := begin.countP_lt member found begins
    rw [List.length_cons]
    exact Nat.lt_of_le_of_lt bound fewer
  · refine ⟨Readers.build_unrolled runs, fun few => ?_⟩
    have nodes := Readers.nodes_unrolled (c := 0) runs rfl few
    rw [rewind_placed, nodes, readForest, rewind_placed, tokens_placed]
    rfl

/-- An array in an array, with a limit far above the number of tokens. The
content that is collected is shorter, the number in there is followed by its
closer, and the two arrays are open at once, which is as many as can be. -/
theorem reading_terminates_of_arrays :
    let o : Options := { Options.standard with maxDepth := 1000 }
    let content : List Token := [.bare .openSquare, .bare .integer, .bare .closeSquare]
    let s := placed (.bare .openSquare :: (content ++ [.bare .closeSquare])) 0
    (∃ closed, s.collect .array (.bare .openSquare) 1 = (closed, .ok content) ∧
      content.length < s.tokens.length) ∧
    ((placed s.tokens 2).readNode o 0).1.index < ((placed s.tokens 2).readNode o 0).1.next.index ∧
    (∃ w, (Visit.start s.tokens 0 .array 0 (.bare .openSquare)).Meets o w ∧
      [Visit.start s.tokens 0 .array 0 (.bare .openSquare), w].length ≤ 1 + 1) ∧
    (Readers.walking o).build .array 0 (.bare .openSquare) s =
      s.buildNode .array o 0 (.bare .openSquare) := by
  intro o content s
  obtain ⟨shorter, _, _, _, nests, _, bounded⟩ :=
    reading_terminates s.tokens 0 .array o 0 (.bare .openSquare)
  obtain ⟨_, progress, _⟩ := reading_terminates s.tokens 2 .array o 0 (.bare .openSquare)
  have located : Shape.array.locate o 0 (.bare .openSquare) (s.tokens.drop 1) = .ok ⟨0, content⟩ := rfl
  have passed : ((Visit.start s.tokens 0 .array 0 (.bare .openSquare)).passed o).countP
      Token.begins = 1 := by
    change ((s.tokens.drop 1).take (build .array o 0 (.bare .openSquare)
      (s.tokens.drop 1)).advances).countP Token.begins = 1
    rw [build_of_ok located]
    rfl
  refine ⟨?_, ?_, ?_, ?_⟩
  · have collects := @collect_placed s.tokens (s.tokens.drop 1) 0 .array (.bare .openSquare) 0 rfl
    exact ⟨_, collects, shorter _ _ content rfl collects⟩
  · have number : ((placed s.tokens 2).readNode o 0).2.result = .ok (.token (.bare .integer)) := by
      rw [readNode_placed (t := .bare .integer) rfl, read_of_plain rfl]
      rfl
    exact (progress _ number).2.2
  · have meets : (Visit.start s.tokens 0 .array 0 (.bare .openSquare)).Meets o
        ⟨1, .array, 1, .bare .openSquare, [.bare .integer, .bare .closeSquare]⟩ :=
      ⟨_, located, .here rfl rfl rfl⟩
    have bound := nests [_] (List.isChain_cons_cons.mpr ⟨meets, .singleton _⟩)
    rw [passed] at bound
    exact ⟨_, meets, bound⟩
  · refine (bounded (fun _ => Readers.walking o) (fun _ => (Readers.walking_agrees o).runs) 2).1 ?_
    rw [passed]
    decide

end Stream

end RuleForest
