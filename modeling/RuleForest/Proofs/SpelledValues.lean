import RuleForest.Session
import RuleForest.Proofs.DecimalText
import RuleForest.Proofs.FoldingFaults
import RuleForest.Proofs.LiteralBody
import RuleForest.Proofs.ReadingCalls

namespace RuleForest

namespace Value

mutual

/-- How many lists of a value stand inside each other. -/
def nesting : Value → Nat
  | .list items => nestingAll items + 1
  | .null | .bool _ | .int _ | .float _ | .text _ => 0

def nestingAll : List Value → Nat
  | [] => 0
  | v :: rest => max v.nesting (nestingAll rest)

end

end Value

/-- The tokens that stand for a value by themselves: those that hold it, and
those whose text names it, writes it in decimal or quotes it. -/
inductive Token.Spells (t : Token) : Value → Prop
  | held : t.kind = .atom → Spells t t.value
  | null : t.kind = .null → Spells t .null
  | bool {b} : t.kind = .bool → t.value = .bool b → Spells t (.bool b)
  | boolName {b s} : t.kind = .bool → t.value = .text s →
      s.toList.map Char.toLower = (if b then "true" else "false").toList → Spells t (.bool b)
  | integer {n} : t.kind = .integer → t.value = .int n → Spells t (.int n)
  | numeral {n} : t.kind = .integer → t.value = .text n.repr → n.natAbs.repr.length ≤ 4300 →
      Spells t (.int n)
  | literal {quote body raw s} : t.kind = .string → t.value = .text raw →
      quote = '\'' ∨ quote = '"' → raw.toList = quote :: (body ++ [quote]) →
      StringLiteral.Spelling quote body s.toList → Spells t (.text s)

/-- Tokens that only keep others apart. -/
def Token.Gap (gap : List Token) : Prop :=
  ∀ t ∈ gap, t.kind = .space ∨ t.kind = .newline ∨ t.kind = .comment

mutual

/-- The runs of tokens that a value may be written as. -/
inductive Value.Spelling : Value → List Token → Prop
  | token {t v} : t.Spells v → Spelling v [t]
  | list {opener closer inner vs} : opener.kind = .openSquare → Value.ListSpelling vs inner →
      closer.kind = .closeSquare → Spelling (.list vs) (opener :: (inner ++ [closer]))

/-- The items of a list, with commas between them. -/
inductive Value.ListSpelling : List Value → List Token → Prop
  | none {gap} : Token.Gap gap → ListSpelling [] gap
  | some {gap v vs first rest} : Token.Gap gap → Value.Spelling v first →
      Value.MoreSpelling vs rest → ListSpelling (v :: vs) (gap ++ first ++ rest)

/-- What stands behind an item of a list. -/
inductive Value.MoreSpelling : List Value → List Token → Prop
  | last {gap} : Token.Gap gap → MoreSpelling [] gap
  | next {gap comma v vs rest} : Token.Gap gap → comma.kind = .comma →
      Value.ListSpelling (v :: vs) rest → MoreSpelling (v :: vs) (gap ++ comma :: rest)

end

/-- The token streams that values may be written as, one behind the other and
with nothing but gaps between them. -/
inductive Value.StreamSpelling : List Value → List Token → Prop
  | done {gap} : Token.Gap gap → Value.StreamSpelling [] gap
  | value {gap v vs first rest} : Token.Gap gap → v.Spelling first → Value.StreamSpelling vs rest →
      Value.StreamSpelling (v :: vs) (gap ++ first ++ rest)

/-- Options that pass over white space and comments, and over nothing else. -/
def Options.PassesGaps (o : Options) : Prop :=
  ∀ group, o.ignores group = true ↔ group = .space ∨ group = .comment

section Element

variable {o : Options} {scope : Scope} {depth : Int}

theorem Options.PassesGaps.skips (passes : o.PassesGaps) {gap : List Token}
    (apart : Token.Gap gap) : o.Skips gap := by
  intro t member
  refine (passes t.group).mpr ?_
  unfold Token.group
  rcases apart t member with space | newline | comment
  · exact .inl (space ▸ rfl)
  · exact .inl (newline ▸ rfl)
  · exact .inr (comment ▸ rfl)

theorem Options.PassesGaps.seen (passes : o.PassesGaps) {group : Group}
    (solid : group ≠ .space ∧ group ≠ .comment) : o.ignores group = false := by
  cases ignored : o.ignores group with
  | false => rfl
  | true => exact absurd ((passes group).mp ignored) (by simp [solid])

/-- A node that a spelled value is read as: it is kept and folds to the value. -/
structure Node.Means (o : Options) (scope : Scope) (node : Node) (v : Value) : Prop where
  kept : node.isIgnored o = false
  folds : node.fold scope = pure v

theorem Token.means_of_literal {t : Token} {v : Value} (seen : o.ignores t.group = false)
    (plain : t.kind ≠ .variable) (literal : t.literal = .ok v) :
    (Node.token t).Means o scope v := by
  refine ⟨seen, ?_⟩
  rw [Node.fold, Token.fold, if_neg plain, literal]
  rfl

/-- A token that spells a value is an element of a list that means the value. -/
theorem Token.Spells.element {t : Token} {v : Value} (spells : t.Spells v)
    (passes : o.PassesGaps) (depth : Int) :
    ∃ node, Element o depth [t] node ∧ node.Means o scope v := by
  have plain (kind : t.kind.group = .value) (literal : t.literal = .ok v) :
      ∃ node, Element o depth [t] node ∧ node.Means o scope v := by
    have seen : o.ignores t.group = false := passes.seen (by simp [Token.group, kind])
    have other : t.kind ≠ .variable := by
      intro same
      rw [same] at kind
      cases kind
    exact ⟨.token t, .plain (.inl kind) seen, means_of_literal seen other literal⟩
  cases spells with
  | held kind => exact plain (kind ▸ rfl) (by simp [Token.literal, kind])
  | null kind => exact plain (kind ▸ rfl) (by simp [Token.literal, kind])
  | bool kind value =>
    exact plain (kind ▸ rfl) (by simp [Token.literal, kind, value, Value.isTrue, Value.isWritable])
  | @boolName b s kind value name =>
    refine plain (kind ▸ rfl) ?_
    have isTrue : (Value.text s).isTrue = b := by
      rw [Value.isTrue, name]
      cases b <;> decide
    rw [Token.literal, kind, value, isTrue]
    rfl
  | integer kind value =>
    refine plain (kind ▸ rfl) ?_
    rw [Token.literal, kind, value]
    rfl
  | @numeral n kind value short =>
    refine plain (kind ▸ rfl) ?_
    have read : (Value.text n.repr).toInteger = .ok n := by
      rw [Value.toInteger, Numeral.integer?_repr n short]
    simp only [Token.literal, kind, value, read]
    rfl
  | @literal quote body raw s kind value quotes written spelling =>
    have isQuote : StringLiteral.isQuote quote = true := by
      rcases quotes with rfl | rfl <;> rfl
    obtain ⟨leaf, read, label, text⟩ := spelling.leaf isQuote value written
    have seen : o.ignores t.group = false := passes.seen (by simp [Token.group, kind, Kind.group])
    refine ⟨.leaf leaf, .string kind seen read, rfl, ?_⟩
    rw [Node.fold, Leaf.fold, if_pos label, text]

mutual

/-- A spelled value is an element of a list wherever its lists may nest. -/
theorem Value.Spelling.element {depth : Int} {v : Value} {tokens : List Token}
    (passes : o.PassesGaps) : v.Spelling tokens → v.nesting ≤ o.maxDepth - depth →
      ∃ node, Element o depth tokens node ∧ node.Means o scope v
  | .token spells, _ => spells.element passes depth
  | @Value.Spelling.list opener closer inner vs opens items closes, deep => by
    have nested : (nestingAll vs : Int) ≤ o.maxDepth - (depth + 1) := by
      rw [nesting] at deep
      omega
    obtain ⟨nodes, derived, folds⟩ := items.derived passes nested
    have seen : o.ignores opener.group = false :=
      passes.seen (by simp [Token.group, opens, Kind.group])
    have begins : opener.kind.shape? = some .array := opens ▸ rfl
    have element := Element.nested begins (by omega) rfl seen .array derived closes
    refine ⟨.array nodes, element, rfl, ?_⟩
    exact (Node.fold_array nodes).trans (by rw [folds]; rfl)

theorem Value.ListSpelling.derived {depth : Int} {vs : List Value} {tokens : List Token}
    (passes : o.PassesGaps) : Value.ListSpelling vs tokens → nestingAll vs ≤ o.maxDepth - depth →
      ∃ nodes, Items o depth tokens nodes ∧ Node.foldAll scope nodes = pure vs
  | .none gap, _ => ⟨[], .none (passes.skips gap), rfl⟩
  | @Value.ListSpelling.some _ v vs _ _ gap spelling more, deep => by
    rw [nestingAll] at deep
    have first : (v.nesting : Int) ≤ o.maxDepth - depth := by omega
    have others : (nestingAll vs : Int) ≤ o.maxDepth - depth := by omega
    obtain ⟨node, element, means⟩ := spelling.element passes first
    obtain ⟨nodes, derived, folds⟩ := more.derived passes others
    refine ⟨node :: nodes, .some (passes.skips gap) element derived, ?_⟩
    rw [Node.foldAll, means.folds, folds]
    rfl

theorem Value.MoreSpelling.derived {depth : Int} {vs : List Value} {tokens : List Token}
    (passes : o.PassesGaps) : Value.MoreSpelling vs tokens → nestingAll vs ≤ o.maxDepth - depth →
      ∃ nodes, More o depth tokens nodes ∧ Node.foldAll scope nodes = pure vs
  | .last gap, _ => ⟨[], .last (passes.skips gap), rfl⟩
  | @Value.MoreSpelling.next _ comma _ _ _ gap separates items, deep => by
    obtain ⟨nodes, derived, folds⟩ := items.derived passes deep
    have seen : o.ignores comma.group = false :=
      passes.seen (by simp [Token.group, separates, Kind.group])
    cases nodes with
    | nil => cases folds
    | cons node nodes => exact ⟨node :: nodes, .next (passes.skips gap) separates seen derived, folds⟩

end

end Element

section Stream

variable {o : Options} {scope : Scope} {depth : Int} {tokens : List Token} {nodes : List Node}

/-- An element of a list is also one node of a stream, whatever follows. -/
theorem Element.forest {first rest : List Token} {node : Node} (element : Element o depth first node)
    (behind : (forest o depth rest).outcome.result = .ok nodes) :
    (RuleForest.forest o depth (first ++ rest)).outcome.result = .ok (node :: nodes) := by
  obtain ⟨t, first, rfl, reads⟩ := element.read
  rw [List.cons_append]
  refine forest_cons (reads.result rest) ?_
  rwa [reads.advances, List.drop_left]

theorem foldForest_kept {node : Node} {v : Value} {vs : List Value} (means : node.Means o scope v)
    (folds : foldForest o scope nodes = pure vs) :
    foldForest o scope (node :: nodes) = pure (v :: vs) := by
  unfold foldForest at folds ⊢
  rw [List.filter_cons_of_pos (by simp [means.kept]), Node.foldAll, means.folds, folds]
  rfl

theorem foldForest_ignored {node : Node} (ignored : node.isIgnored o = true) :
    foldForest o scope (node :: nodes) = foldForest o scope nodes := by
  unfold foldForest
  rw [List.filter_cons_of_neg (by simp [ignored])]

/-- A gap is read as plain tokens, and these are dropped before the folding. -/
theorem Token.Gap.forest {gap rest : List Token} (apart : Token.Gap gap) (passes : o.PassesGaps)
    (scope : Scope) (behind : (forest o depth rest).outcome.result = .ok nodes) :
    ∃ more, (RuleForest.forest o depth (gap ++ rest)).outcome.result = .ok more ∧
      foldForest o scope more = foldForest o scope nodes := by
  induction gap with
  | nil => exact ⟨nodes, behind, rfl⟩
  | cons t gap ih =>
    obtain ⟨more, run, folds⟩ := ih fun u member => apart u (List.mem_cons_of_mem t member)
    have plain : t.isComposite = false := by
      unfold Token.isComposite
      rcases apart t List.mem_cons_self with space | newline | comment
      · exact space ▸ rfl
      · exact newline ▸ rfl
      · exact comment ▸ rfl
    have ignored : (Node.token t).isIgnored o = true := passes.skips apart t List.mem_cons_self
    have here : read o depth t (gap ++ rest) = ⟨0, pure (.token t)⟩ := read_of_plain plain
    rw [List.cons_append]
    refine ⟨.token t :: more, forest_cons ?_ ?_, (foldForest_ignored ignored).trans folds⟩
    · rw [here]
      rfl
    · rwa [here]

/-- A stream of spelled values is read, and what it is read as folds to them. -/
theorem Value.StreamSpelling.reads {vs : List Value} (spelling : Value.StreamSpelling vs tokens)
    (passes : o.PassesGaps) (scope : Scope)
    (deep : ∀ v ∈ vs, (v.nesting : Int) ≤ o.maxDepth - depth) :
    ∃ nodes, (forest o depth tokens).outcome.result = .ok nodes ∧
      foldForest o scope nodes = pure vs := by
  induction spelling with
  | @done gap apart =>
    have empty : (forest o depth []).outcome.result = .ok [] := by
      rw [forest]
      rfl
    obtain ⟨nodes, run, folds⟩ := apart.forest passes scope empty
    rw [List.append_nil] at run
    exact ⟨nodes, run, folds⟩
  | @value gap v vs first rest apart spelled _ ih =>
    obtain ⟨here, later⟩ := List.forall_mem_cons.mp deep
    obtain ⟨nodes, run, folds⟩ := ih later
    obtain ⟨node, element, means⟩ := spelled.element passes here
    obtain ⟨more, whole, same⟩ := apart.forest passes scope (element.forest run)
    refine ⟨more, ?_, same.trans (foldForest_kept means folds)⟩
    rwa [List.append_assoc]

end Stream

/-- Folding a stream gives back the values that the stream was written from,
however each of them is spelled and wherever the cursor was. No function is
invoked for it. -/
theorem Session.values_of_spelling (session : Session) (vs : List Value)
    (passes : session.frame.options.PassesGaps)
    (deep : ∀ v ∈ vs, (v.nesting : Int) ≤ session.frame.options.maxDepth - session.frame.depth)
    (spelling : Value.StreamSpelling vs session.stream.tokens) :
    session.values.2.result = .ok vs ∧ session.values.2.calls = [] := by
  obtain ⟨nodes, run, folds⟩ := spelling.reads passes session.scope deep
  refine ⟨Traced.result_bind_eq_ok.mpr ⟨nodes, run, by rw [folds]; rfl⟩, ?_⟩
  refine Traced.calls_bind (forest_calls _ _ _) fun others same => ?_
  cases run.symm.trans same
  rw [folds]
  rfl

/-- An array of a numeral and a literal, and a null behind a space. -/
theorem Session.values_of_two :
    (Session.start ⟨[.bare .openSquare, ⟨.integer, .text "-12", 1, 1⟩, .bare .comma,
        ⟨.string, .text "'it\\'s'", 5, 1⟩, .bare .closeSquare, .bare .space, .bare .null], 3⟩
      (fun _ => none) {}).values.2.result = .ok [.list [.int (-12), .text "it's"], .null] := by
  have empty : Token.Gap [] := fun _ member => nomatch member
  have space : Token.Gap [.bare .space] := by
    intro t member
    exact .inl (List.mem_singleton.mp member ▸ rfl)
  have numeral : Value.Spelling (.int (-12)) [⟨.integer, .text "-12", 1, 1⟩] :=
    .token (.numeral rfl rfl (by decide))
  have body : StringLiteral.Spelling '\'' ['i', 't', '\\', '\'', 's'] "it's".toList :=
    .plain (by decide) (by decide) (.plain (by decide) (by decide)
      (.escaped .delimiter (.plain (by decide) (by decide) .nil)))
  have literal : Value.Spelling (.text "it's") [⟨.string, .text "'it\\'s'", 5, 1⟩] :=
    .token (.literal rfl rfl (.inl rfl) rfl body)
  have comma : (Token.bare .comma).kind = .comma := rfl
  have opens : (Token.bare .openSquare).kind = .openSquare := rfl
  have closes : (Token.bare .closeSquare).kind = .closeSquare := rfl
  have items := Value.ListSpelling.some empty numeral
    (.next empty comma (.some empty literal (.last empty)))
  have null : Value.Spelling .null [.bare .null] := .token (.null rfl)
  have spelling := Value.StreamSpelling.value empty (.list opens items closes)
    (.value space null (.done empty))
  have passes : Options.standard.PassesGaps := by
    intro group
    cases group <;> decide
  exact (values_of_spelling _ _ passes (by decide) spelling).1

end RuleForest
