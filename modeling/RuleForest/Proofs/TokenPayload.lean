import Mathlib.Data.List.Forall2
import RuleForest.Proofs.CursorPlace
import RuleForest.Proofs.ReadingFaults

namespace RuleForest

/-- Tokens of one kind. Literals have one raw value besides, and names can
both be written or both not. Else the values and the places are free. -/
structure Token.Alike (a b : Token) : Prop where
  kind : a.kind = b.kind
  raw : a.kind = .string → a.value = b.value
  name : a.kind = .function → a.value.isWritable = b.value.isWritable

/-- Nodes of one form. What the one is made from corresponds to what the
other is made from, part by part. -/
inductive Node.Alike (R : Token → Token → Prop) : Node → Node → Prop
  | plain {a b} : a.isComposite = false → R a b → Alike R (.token a) (.token b)
  | string {a b l m} : a.kind = .string → R a b → StringLiteral.leaf a = .ok l →
      StringLiteral.leaf b = .ok m → Alike R (.leaf l) (.leaf m)
  | structured {shape a b xs ys} : R a b → List.Forall₂ (Alike R) xs ys →
      Alike R (Shape.node shape a xs) (Shape.node shape b ys)

/-- Records of corresponding structures, with one count. -/
inductive Event.Alike (R : Token → Token → Prop) : Event → Event → Prop
  | structured {shape a b count} : R a b →
      Alike R (Shape.event shape a count) (Shape.event shape b count)

/-- Runs that both succeed, alike in their results, or both fail, in one
family of faults and at corresponding tokens, or for names that cannot be
written. Their records correspond. -/
inductive Traced.Alike {α : Type} (R : Token → Token → Prop) (Same : α → α → Prop) :
    Traced α → Traced α → Prop
  | ok {es fs a b} : List.Forall₂ (Event.Alike R) es fs → Same a b →
      Alike R Same ⟨es, .ok a⟩ ⟨fs, .ok b⟩
  | error {es fs c d s t} : List.Forall₂ (Event.Alike R) es fs →
      Cause.category c = Cause.category d → R s t →
      Alike R Same ⟨es, .error (.blame c s)⟩ ⟨fs, .error (.blame d t)⟩
  | unwritable {es fs} : List.Forall₂ (Event.Alike R) es fs →
      Alike R Same ⟨es, .error .unwritable⟩ ⟨fs, .error .unwritable⟩

/-- Two structures that begin at given tokens, read alike. Either neither is
located, with corresponding tokens or the first ones blamed or with names that
cannot be told, or both are, and their contents are read alike. -/
inductive Shape.BuiltAlike (R : Token → Token → Prop) (shape : Shape) (first second : Token) :
    Traced Node → Traced Node → Prop
  | missed {c d s t} : Cause.category c = Cause.category d → R s t ∨ (s = first ∧ t = second) →
      BuiltAlike R shape first second (.fail (.blame c s)) (.fail (.blame d t))
  | untold : BuiltAlike R shape first second (.fail .unwritable) (.fail .unwritable)
  | located {items others} : Traced.Alike R (List.Forall₂ (Node.Alike R)) items others →
      BuiltAlike R shape first second (shape.finish first items) (shape.finish second others)

/-- What a list has just read, with corresponding commas. -/
inductive Slot.Alike (R : Token → Token → Prop) : Slot → Slot → Prop
  | first : Alike R .first .first
  | filled : Alike R .filled .filled
  | after {a b} : R a b → Alike R (.after a) (.after b)

theorem Slot.Alike.isFilled {R : Token → Token → Prop} {slot next : Slot} (slots : slot.Alike R next) :
    slot.isFilled = next.isFilled := by
  cases slots <;> rfl

section Runs

variable {α β : Type} {R : Token → Token → Prop} {Same : α → α → Prop} {Next : β → β → Prop}

theorem Traced.Alike.bind {run other : Traced α} {next later : α → Traced β}
    (alike : Traced.Alike R Same run other)
    (follow : ∀ a b, Same a b → Traced.Alike R Next (next a) (later b)) :
    Traced.Alike R Next (run >>= next) (other >>= later) := by
  cases alike with
  | error events causes blamed => exact .error events causes blamed
  | unwritable events => exact .unwritable events
  | @ok es fs a b events same =>
    rw [Traced.mk_ok_bind, Traced.mk_ok_bind]
    cases runs : next a with
    | mk more result =>
      cases others : later b with
      | mk further outcome =>
        have both := follow a b same
        rw [runs, others] at both
        cases both with
        | ok behind ends => exact .ok (List.rel_append events behind) ends
        | error behind causes blamed => exact .error (List.rel_append events behind) causes blamed
        | unwritable behind => exact .unwritable (List.rel_append events behind)

theorem Shape.BuiltAlike.alike {shape : Shape} {first second : Token} {run other : Traced Node}
    (built : shape.BuiltAlike R first second run other) (here : R first second)
    (names : shape.isNamed first = shape.isNamed second) :
    Traced.Alike R (Node.Alike R) run other := by
  cases built with
  | missed causes blamed =>
    refine .error .nil causes ?_
    rcases blamed with there | ⟨rfl, rfl⟩
    · exact there
    · exact here
  | untold => exact .unwritable .nil
  | located content =>
    refine content.bind fun xs ys same => ?_
    rw [names, same.length_eq]
    split
    · exact .ok (.cons (.structured here) .nil) (.structured here same)
    · exact .unwritable .nil

end Runs

section Pairs

variable {R : Token → Token → Prop} {o : Options} {shape : Shape}
  {tokens others rest lead first inner : List Token}

/-- Tokens that stand at the same places of two lists. -/
abbrev Token.Pairs (R : Token → Token → Prop) : List Token → List Token → Prop :=
  List.Forall₂ fun a b => a.Alike b ∧ R a b

theorem Token.Alike.group {a b : Token} (alike : a.Alike b) : a.group = b.group :=
  congrArg Kind.group alike.kind

theorem Token.Alike.isNamed {a b : Token} (alike : a.Alike b) (begins : a.kind.shape? = some shape) :
    shape.isNamed a = shape.isNamed b := by
  have kind := Kind.shape?_eq_some_iff.mp begins
  cases shape with
  | array => rfl
  | call => exact alike.name kind

theorem Token.Pairs.split (pairs : Token.Pairs R (first ++ rest) others) :
    ∃ front back, others = front ++ back ∧ Token.Pairs R first front ∧ Token.Pairs R rest back := by
  refine ⟨others.take first.length, others.drop first.length, (List.take_append_drop ..).symm, ?_, ?_⟩
  · have taken := List.forall₂_take first.length pairs
    rwa [List.take_left] at taken
  · have dropped := List.forall₂_drop first.length pairs
    rwa [List.drop_left] at dropped

theorem Options.Skips.pairs (skips : o.Skips tokens) (pairs : Token.Pairs R tokens others) :
    o.Skips others := by
  induction pairs with
  | nil => exact o.skips_nil
  | cons both _ ih =>
    obtain ⟨ignored, further⟩ := List.forall_mem_cons.mp skips
    rw [both.1.group] at ignored
    exact (ih further).cons ignored

theorem Lead.pairs (leads : Lead o shape lead) (pairs : Token.Pairs R lead others) :
    Lead o shape others := by
  cases leads with
  | array =>
    cases pairs
    exact .array
  | @call gap opener skips opens seen =>
    obtain ⟨front, back, rfl, gaps, last⟩ := pairs.split
    cases last with
    | cons both none =>
      cases none
      exact .call (skips.pairs gaps) (both.1.kind.symm.trans opens) seen

/-- The closer of a bracket is found at the same place in both lists. -/
theorem Token.Pairs.enclosed (pairs : Token.Pairs R tokens others) (shape : Shape) (level : Nat) :
    Option.Rel (Token.Pairs R) (shape.enclosed level tokens) (shape.enclosed level others) := by
  induction pairs generalizing level with
  | nil => exact .none
  | @cons a b rest more both _ ih =>
    have goesOn (next : Nat) : Option.Rel (Token.Pairs R)
        ((shape.enclosed next rest).map (a :: ·)) ((shape.enclosed next more).map (b :: ·)) := by
      have behind := ih next
      generalize shape.enclosed next rest = found at behind ⊢
      generalize shape.enclosed next more = again at behind ⊢
      cases behind with
      | none => exact .none
      | some inner => exact .some (.cons both inner)
    rw [Shape.enclosed, Shape.enclosed, ← both.1.kind]
    by_cases opens : a.kind = shape.opener
    · rw [if_pos opens, if_pos opens]
      exact goesOn (level + 1)
    rw [if_neg opens, if_neg opens]
    by_cases closes : a.kind = shape.closer
    · rw [if_pos closes, if_pos closes]
      by_cases last : level = 0
      · rw [if_pos last, if_pos last]
        exact .some .nil
      · rw [if_neg last, if_neg last]
        exact goesOn (level - 1)
    · rw [if_neg closes, if_neg closes]
      exact goesOn level

end Pairs

section Reading

variable {R : Token → Token → Prop} {o : Options} {depth : Int} {shape : Shape} {slot next : Slot}
  {first second s t : Token} {tokens others rest more : List Token}

/-- Structures are read alike on alike tokens, if their contents are. -/
theorem Token.Pairs.build (pairs : Token.Pairs R rest more)
    (names : shape.isNamed first = shape.isNamed second)
    (content : ∀ extent, shape.locate o depth first rest = .ok extent →
      ∀ inner, Token.Pairs R extent.inner inner →
        Traced.Alike R (List.Forall₂ (Node.Alike R))
          (elements shape o (depth + 1) .first extent.inner)
          (elements shape o (depth + 1) .first inner)) :
    (RuleForest.build shape o depth first rest).advances =
        (RuleForest.build shape o depth second more).advances ∧
      shape.BuiltAlike R first second (RuleForest.build shape o depth first rest).outcome
        (RuleForest.build shape o depth second more).outcome := by
  by_cases deep : o.maxDepth ≤ depth
  · rw [build_of_error (Shape.locate_of_deep deep shape first rest),
      build_of_error (Shape.locate_of_deep deep shape second more)]
    exact ⟨rfl, .missed rfl (Or.inr ⟨rfl, rfl⟩)⟩
  have shallow : depth < o.maxDepth := Int.not_le.mp deep
  have length := pairs.length_eq
  rcases shape.lead_cases o rest with ⟨lead, tail, leads, rfl⟩ | ⟨rfl, skips⟩ |
    ⟨rfl, gap, t, after, rfl, skips, seen, other⟩
  · obtain ⟨front, back, rfl, ahead, behind⟩ := pairs.split
    have located := Shape.locate_of_lead shallow leads first tail
    have again := Shape.locate_of_lead shallow (leads.pairs ahead) second back
    have enclosing := behind.enclosed shape 0
    cases found : shape.enclosed 0 tail with
    | none =>
      rw [found] at located enclosing
      generalize shape.enclosed 0 back = other at again enclosing
      cases enclosing
      rw [build_of_error located, build_of_error again]
      refine ⟨?_, .missed rfl (Or.inr ⟨rfl, rfl⟩)⟩
      rw [Shape.unterminated, Shape.unterminated, length]
    | some inner =>
      rw [found] at located enclosing
      generalize shape.enclosed 0 back = other at again enclosing
      cases enclosing with
      | @some _ same both =>
        rw [build_of_ok located, build_of_ok again]
        refine ⟨?_, .located (content _ located _ both)⟩
        rw [Extent.advances, Extent.advances, ahead.length_eq, both.length_eq]
  · rw [build_of_error (Shape.locate_of_skips shallow skips first),
      build_of_error (Shape.locate_of_skips shallow (skips.pairs pairs) second)]
    refine ⟨?_, .missed rfl (Or.inr ⟨rfl, rfl⟩)⟩
    rw [Shape.unterminated, Shape.unterminated, length]
  · obtain ⟨front, back, rfl, gaps, behind⟩ := pairs.split
    cases behind with
    | @cons _ u _ back both _ =>
      have visible : o.ignores u.group = false := by rwa [both.1.group] at seen
      have differs : u.kind ≠ .openParen := by rwa [both.1.kind] at other
      rw [build_of_error (Shape.locate_of_other shallow skips seen other first),
        build_of_error (Shape.locate_of_other shallow (skips.pairs gaps) visible differs second)]
      refine ⟨congrArg (· + 1) gaps.length_eq, ?_⟩
      rcases Fault.missingParen_cases first t with ⟨told, _, same⟩ | ⟨untold, same⟩
      · obtain ⟨_, again⟩ := Fault.missingParen_of_writable (names.symm.trans told) u
        rw [same, again]
        exact .missed rfl (Or.inl both.2)
      · rw [same, Fault.missingParen_of_unwritable (names.symm.trans untold) u]
        exact .untold

theorem Token.Alike.isComposite (alike : s.Alike t) : s.isComposite = t.isComposite :=
  congrArg Kind.isComposite alike.kind

/-- Literals of one raw value are all well formed or all malformed. -/
theorem Token.Alike.literal (alike : s.Alike t) (string : s.kind = .string) :
    (∃ l m, StringLiteral.leaf s = .ok l ∧ StringLiteral.leaf t = .ok m) ∨
      (StringLiteral.leaf s = .error (.blame .malformedString s) ∧
        StringLiteral.leaf t = .error (.blame .malformedString t)) := by
  have raw := alike.raw string
  unfold StringLiteral.leaf
  rw [← raw]
  split
  · split
    · exact Or.inl ⟨_, _, rfl, rfl⟩
    · exact Or.inr ⟨rfl, rfl⟩
  · exact Or.inr ⟨rfl, rfl⟩

/-- Nodes are read alike on alike tokens, if their contents are. -/
theorem Token.Pairs.read (pairs : Token.Pairs R rest more) (alike : s.Alike t) (here : R s t)
    (content : ∀ nested extent, s.kind.shape? = some nested →
      nested.locate o depth s rest = .ok extent → ∀ inner, Token.Pairs R extent.inner inner →
        Traced.Alike R (List.Forall₂ (Node.Alike R))
          (elements nested o (depth + 1) .first extent.inner)
          (elements nested o (depth + 1) .first inner)) :
    (RuleForest.read o depth s rest).advances = (RuleForest.read o depth t more).advances ∧
      Traced.Alike R (Node.Alike R) (RuleForest.read o depth s rest).outcome
        (RuleForest.read o depth t more).outcome := by
  rcases s.cases_kind with string | ⟨nested, begins⟩ | plain
  · rw [read_of_string string, read_of_string (alike.kind.symm.trans string)]
    refine ⟨rfl, ?_⟩
    rcases alike.literal string with ⟨l, m, one, two⟩ | ⟨one, two⟩
    · rw [one, two]
      exact .ok .nil (.string string here one two)
    · rw [one, two]
      exact .error .nil rfl here
  · rw [read_of_shape begins, read_of_shape (alike.kind ▸ begins)]
    have names := alike.isNamed begins
    obtain ⟨advances, built⟩ := pairs.build names fun extent found => content nested extent begins found
    exact ⟨advances, built.alike here names⟩
  · rw [read_of_plain plain, read_of_plain (alike.isComposite.symm.trans plain)]
    exact ⟨rfl, .ok .nil (.plain plain here)⟩

end Reading

namespace Stream

end Stream

end RuleForest
