import RuleForest.Proofs.CursorPlace
import RuleForest.Proofs.NodeLeaves

namespace RuleForest

/-- A node and the whole range of tokens that it is made from. A structure
ends on its own closer, and its leaves are those that the range leaves. -/
inductive Node.MadeFrom (o : Options) : Node → List Token → Prop
  | plain {t : Token} : t.isComposite = false → MadeFrom o (.token t) [t]
  | string {t : Token} {leaf : Leaf} : t.kind = .string → StringLiteral.leaf t = .ok leaf →
      MadeFrom o (.leaf leaf) [t]
  | structured {shape : Shape} {first closer : Token} {lead inner : List Token}
      {nodes : List Node} : first.kind = shape.head → Lead o shape lead →
      closer.kind = shape.closer → shape.ClosesAt 1 (inner ++ [closer]) inner.length →
      List.Forall₂ Token.Leaves (o.survivors (first :: (lead ++ inner ++ [closer])))
        (shape.node first nodes).leaves →
      MadeFrom o (shape.node first nodes) (first :: (lead ++ inner ++ [closer]))

section Range

variable {o : Options} {depth : Int} {t : Token} {rest : List Token} {node : Node}

/-- A node is made from the token at the cursor and those that the cursor
moves over, and these are there. -/
theorem read_madeFrom (run : (read o depth t rest).outcome.result = .ok node) :
    (read o depth t rest).advances ≤ rest.length ∧
      node.MadeFrom o (t :: rest.take (read o depth t rest).advances) := by
  rcases t.cases_kind with string | ⟨shape, begins⟩ | plain
  · rw [read_of_string string] at run ⊢
    cases literal : StringLiteral.leaf t with
    | error fault =>
      rw [literal] at run
      cases run
    | ok leaf =>
      rw [literal] at run
      cases run
      exact ⟨Nat.zero_le _, .string string literal⟩
  · rw [read_of_shape begins] at run ⊢
    obtain ⟨extent, nodes, found, content, _, rfl⟩ := build_eq_ok_iff.mp run
    obtain ⟨_, lead, behind, leads, rfl, length, enclosing⟩ := Shape.locate_eq_ok_iff.mp found
    obtain ⟨closer, after, closes, rfl, exchange⟩ := Shape.enclosed_split enclosing
    have advances : extent.advances = (lead ++ extent.inner ++ [closer]).length := by
      rw [Extent.advances, length, List.length_append, List.length_append, List.length_singleton]
    have whole : lead ++ (extent.inner ++ closer :: after) =
        (lead ++ extent.inner ++ [closer]) ++ after := by simp
    have items : Items o (depth + 1) extent.inner nodes := elements_derives content
    rw [build_of_ok found, advances, whole, List.take_left' rfl]
    refine ⟨?_, ?_⟩
    · rw [@List.length_append _ _ after]
      exact Nat.le_add_right _ _
    have head := Kind.shape?_eq_some_iff.mp begins
    have place := Shape.enclosed_append_iff.mp (exchange [])
    exact .structured head leads closes place
      (Shape.survivors_leaves head leads closes items.kept_leaves)
  · rw [read_of_plain plain] at run ⊢
    cases run
    exact ⟨Nat.zero_le _, .plain plain⟩

end Range

/-- The places at which ranges begin when a further range stands in front. -/
def placesBehind (length : Nat) (places : Nat → Nat) : Nat → Nat
  | 0 => 0
  | i + 1 => length + places i

/-- The places at which the nodes of a forest begin: each node is read at its
place, and the next one begins behind what was read. -/
theorem forest_places {o : Options} {depth : Int} {tokens : List Token} {nodes : List Node}
    (run : (forest o depth tokens).outcome.result = .ok nodes) :
    (forest o depth tokens).advances = tokens.length ∧ ∃ k : Nat → Nat,
      k 0 = 0 ∧ k nodes.length = tokens.length ∧
      ∀ i node, nodes[i]? = some node → ∃ t, tokens[k i]? = some t ∧
        (read o depth t (tokens.drop (k i + 1))).outcome.result = .ok node ∧
        k (i + 1) = k i + (read o depth t (tokens.drop (k i + 1))).advances + 1 := by
  induction tokens using forest_induction o depth generalizing nodes with
  | nil =>
    rw [forest] at run ⊢
    cases run
    exact ⟨rfl, fun _ => 0, rfl, rfl, by simp⟩
  | node t rest ih =>
    rw [forest] at run ⊢
    obtain ⟨node, here, behind⟩ := Traced.result_bind_eq_ok.mp run
    obtain ⟨others, later, same⟩ := Traced.result_bind_eq_ok.mp behind
    cases same
    have within := (read_madeFrom here).1
    obtain ⟨total, k, first, last, places⟩ := ih later
    rw [List.length_drop] at total last
    refine ⟨?_, placesBehind (1 + (read o depth t rest).advances) k, rfl, ?_, ?_⟩
    · simp only [Traced.succeeds_iff.mpr ⟨node, here⟩, if_true, total, List.length_cons]
      omega
    · simp only [List.length_cons, placesBehind, last]
      omega
    · intro i made found
      cases i with
      | zero =>
        cases found
        refine ⟨t, rfl, here, ?_⟩
        simp only [placesBehind, first, List.drop_zero, Nat.zero_add, List.drop_succ_cons]
        omega
      | succ i =>
        obtain ⟨u, atPlace, result, next⟩ := places i made found
        have dropped (n : Nat) : (t :: rest).drop (1 + (read o depth t rest).advances + n) =
            (rest.drop (read o depth t rest).advances).drop n := by
          rw [List.drop_drop, Nat.add_assoc, Nat.add_comm, List.drop_succ_cons]
        have after : (t :: rest).drop (1 + (read o depth t rest).advances + k i + 1) =
            (rest.drop (read o depth t rest).advances).drop (k i + 1) :=
          dropped (k i + 1)
        simp only [placesBehind, after]
        refine ⟨u, ?_, result, by omega⟩
        rw [← List.head?_drop, dropped, List.head?_drop, atPlace]

/-- Reading a whole stream loses, repeats and exchanges no token. The nodes
are made from consecutive ranges of tokens that begin with the first token
and end with the last. Each node is what is read at the start of its range,
and leaves the cursor on the last token of the range. -/
theorem Stream.readForest_partition {tokens : List Token} {c : Nat} {o : Options} {depth : Int}
    {nodes : List Node} (run : ((placed tokens c).readForest o depth).2.result = .ok nodes) :
    ((placed tokens c).readForest o depth).1.index =
      (if tokens = [] then (-1 : Int) else (tokens.length : Int)) ∧
    ∃ k : Nat → Nat, k 0 = 0 ∧ k nodes.length = tokens.length ∧
      ∀ i node, nodes[i]? = some node → k i < k (i + 1) ∧
        (placed tokens (k i)).index = k i ∧
        ((placed tokens (k i)).readNode o depth).2.result = .ok node ∧
        ((placed tokens (k i)).readNode o depth).1.index = (k (i + 1) : Int) - 1 ∧
        node.MadeFrom o ((tokens.take (k (i + 1))).drop (k i)) := by
  rw [readForest_placed] at run ⊢
  obtain ⟨total, k, first, last, places⟩ := forest_places run
  refine ⟨?_, k, first, last, ?_⟩
  · rw [total, index_placed]
    cases tokens with
    | nil => rfl
    | cons t rest => simp
  · intro i node found
    obtain ⟨t, atPlace, result, next⟩ := places i node found
    obtain ⟨within, made⟩ := read_madeFrom result
    obtain ⟨inside, atIndex⟩ := List.getElem?_eq_some_iff.mp atPlace
    rw [List.length_drop] at within
    rw [readNode_placed atPlace]
    refine ⟨by omega, index_placed_of_le (by omega) (by omega), result, ?_, ?_⟩
    · rw [index_placed_of_le (by omega) (by omega), next]
      omega
    · have range : (tokens.take (k (i + 1))).drop (k i) =
          t :: (tokens.drop (k i + 1)).take (read o depth t (tokens.drop (k i + 1))).advances := by
        rw [List.drop_take, List.drop_eq_getElem_cons inside, atIndex, next, Nat.add_assoc,
          Nat.add_sub_cancel_left, List.take_succ_cons]
      rwa [range]

/-- An empty array and the number behind it. -/
theorem Stream.readForest_partition_of_two :
    ∃ k : Nat → Nat, k 0 = 0 ∧ k 2 = 3 ∧
      (Node.array []).MadeFrom .standard
        (([.bare .openSquare, .bare .closeSquare, .bare .integer].take (k 1)).drop 0) ∧
      (Node.token (.bare .integer)).MadeFrom .standard
        (([.bare .openSquare, .bare .closeSquare, .bare .integer].take 3).drop (k 1)) := by
  have run : ((placed [.bare .openSquare, .bare .closeSquare, .bare .integer] 0).readForest
      .standard 0).2.result = .ok [.array [], .token (.bare .integer)] := by
    have found : Shape.array.locate .standard 0 (.bare .openSquare)
        [.bare .closeSquare, .bare .integer] = .ok ⟨0, []⟩ := rfl
    have empty : read .standard 0 (.bare .openSquare) [.bare .closeSquare, .bare .integer] =
        ⟨1, ⟨[.array 0 0], .ok (.array [])⟩⟩ := by
      rw [@read_of_shape _ _ _ _ .array rfl, build_of_ok found, elements_nil (by simp)]
      rfl
    have number (rest : List Token) : read .standard 0 (.bare .integer) rest =
        ⟨0, pure (.token (.bare .integer))⟩ := read_of_plain rfl
    rw [readForest_placed, forest, empty]
    simp only [List.drop_succ_cons, List.drop_zero]
    rw [forest, number]
    simp only [List.drop_zero]
    rw [forest]
    rfl
  obtain ⟨_, k, first, last, places⟩ := readForest_partition run
  have atFirst := (places 0 _ rfl).2.2.2.2
  have atSecond := (places 1 _ rfl).2.2.2.2
  rw [first] at atFirst
  rw [show k (1 + 1) = 3 from last] at atSecond
  exact ⟨k, first, last, atFirst, atSecond⟩

end RuleForest
