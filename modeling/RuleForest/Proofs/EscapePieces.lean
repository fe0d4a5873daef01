import Mathlib.Data.List.Forall2
import RuleForest.Escape

namespace RuleForest

/-- What a text is cut into from left to right. A backslash takes the next
character with it, and dangles where there is none. -/
inductive Piece where
  | plain (c : Char)
  | escape (letter : Char)
  | dangling
deriving DecidableEq, Repr

namespace Piece

/-- The letters of the known escapes, each with the character it denotes. -/
def known : List (Char × Char) :=
  [('\\', '\\'), ('"', '"'), ('\'', '\''), ('n', '\n'), ('t', '\t'), ('r', '\r')]

def written : Piece → List Char
  | .plain c => [c]
  | .escape letter => ['\\', letter]
  | .dangling => ['\\']

/-- Only a known escape stands for something else than it is written as. -/
def meant : Piece → List Char
  | .plain c => [c]
  | .escape letter =>
    match known.lookup letter with
    | some c => [c]
    | none => ['\\', letter]
  | .dangling => ['\\']

def isKnown : Piece → Bool
  | .escape letter => (known.lookup letter).isSome
  | _ => false

def scan : List Char → List Piece
  | [] => []
  | [c] => [if c = '\\' then .dangling else .plain c]
  | c :: d :: rest => if c = '\\' then .escape d :: scan rest else .plain c :: scan (d :: rest)

/-- A way to write a character: as it is, unless it is a backslash, or by
one of its escapes. -/
inductive Spells : Piece → Char → Prop
  | plain {c : Char} : c ≠ '\\' → Spells (.plain c) c
  | escape {letter c : Char} : (letter, c) ∈ known → Spells (.escape letter) c

/-- A text goes on behind a plain character or behind an escape. -/
theorem text_induction {motive : List Char → Prop} (nil : motive []) (dangling : motive ['\\'])
    (plain : ∀ c rest, c ≠ '\\' → motive rest → motive (c :: rest))
    (escape : ∀ letter rest, motive rest → motive ('\\' :: letter :: rest)) (s : List Char) :
    motive s := by
  induction s using scan.induct with
  | case1 => exact nil
  | case2 c =>
    by_cases backslash : c = '\\'
    · subst backslash
      exact dangling
    · exact plain c [] backslash nil
  | case3 letter rest ih => exact escape letter rest ih
  | case4 c d rest solid ih => exact plain c (d :: rest) solid ih

theorem scan_plain {c : Char} (solid : c ≠ '\\') (rest : List Char) :
    scan (c :: rest) = .plain c :: scan rest := by
  cases rest with
  | nil => simp [scan, solid]
  | cons d rest => rw [scan, if_neg solid]

theorem scan_escape (letter : Char) (rest : List Char) :
    scan ('\\' :: letter :: rest) = .escape letter :: scan rest := by
  rw [scan, if_pos rfl]

/-- The pieces of a text are all of it. -/
theorem written_scan (s : List Char) : (scan s).flatMap written = s := by
  induction s using text_induction with
  | nil => rfl
  | dangling => rfl
  | plain c rest solid ih =>
    rw [scan_plain solid, List.flatMap_cons, ih]
    rfl
  | escape letter rest ih =>
    rw [scan_escape, List.flatMap_cons, ih]
    rfl

/-- A text that is put together from pieces falls apart into these, if none
of its plain characters is a backslash and none of its backslashes dangles. -/
theorem scan_written {pieces : List Piece} (dangles : Piece.dangling ∉ pieces)
    (solid : Piece.plain '\\' ∉ pieces) : scan (pieces.flatMap written) = pieces := by
  induction pieces with
  | nil => rfl
  | cons piece rest ih =>
    rw [List.mem_cons, not_or] at dangles solid
    have behind := ih dangles.2 solid.2
    rw [List.flatMap_cons]
    cases piece with
    | plain c =>
      have other : c ≠ '\\' := by
        rintro rfl
        exact solid.1 rfl
      rw [written, List.singleton_append, scan_plain other, behind]
    | escape letter =>
      rw [written, List.cons_append, List.singleton_append, scan_escape, behind]
    | dangling => exact absurd rfl dangles.1

theorem lookup_known (letter : Char) : known.lookup letter = escape? letter := by
  unfold escape?
  split
  · rfl
  · rfl
  · rfl
  · rfl
  · rfl
  · rfl
  · rename_i backslash double single n t r
    simp only [known, List.lookup_cons, beq_false_of_ne backslash, beq_false_of_ne double,
      beq_false_of_ne single, beq_false_of_ne n, beq_false_of_ne t, beq_false_of_ne r, List.lookup_nil]

theorem resolve_eq (letter : Char) : resolve letter = (Piece.escape letter).meant := by
  cases found : escape? letter <;> simp only [resolve, meant, lookup_known, found]

theorem unescape_eq (s : List Char) : unescape s = (scan s).flatMap meant := by
  induction s using text_induction with
  | nil => rfl
  | dangling => rfl
  | plain c rest solid ih =>
    rw [unescape_cons solid, scan_plain solid, List.flatMap_cons, ih]
    rfl
  | escape letter rest ih => rw [unescape_escape, scan_escape, List.flatMap_cons, ih, resolve_eq]

theorem scan_append {a : List Char} (dangles : Piece.dangling ∉ scan a) (b : List Char) :
    scan (a ++ b) = scan a ++ scan b := by
  induction a using text_induction with
  | nil => rfl
  | dangling => exact absurd (List.mem_singleton_self _) dangles
  | plain c rest solid ih =>
    rw [scan_plain solid, List.mem_cons, not_or] at dangles
    rw [List.cons_append, scan_plain solid, scan_plain solid, ih dangles.2, List.cons_append]
  | escape letter rest ih =>
    rw [scan_escape, List.mem_cons, not_or] at dangles
    rw [List.cons_append, List.cons_append, scan_escape, scan_escape, ih dangles.2, List.cons_append]

end Piece

/-- How many backslashes a text ends with. -/
def backslashesAtEnd (s : List Char) : Nat :=
  (s.reverse.takeWhile (· = '\\')).length

theorem backslashesAtEnd_le (s : List Char) : backslashesAtEnd s ≤ s.length := by
  have part := (s.reverse.takeWhile_sublist (· = '\\')).length_le
  rwa [List.length_reverse] at part

theorem backslashesAtEnd_cons (c : Char) (rest : List Char) :
    backslashesAtEnd (c :: rest) =
      if backslashesAtEnd rest = rest.length ∧ c = '\\' then rest.length + 1
      else backslashesAtEnd rest := by
  unfold backslashesAtEnd
  rw [List.reverse_cons, List.takeWhile_append, List.length_reverse]
  by_cases all : (rest.reverse.takeWhile (· = '\\')).length = rest.length
  · by_cases backslash : c = '\\' <;> simp [all, backslash]
  · simp [all]

namespace Piece

/-- Whether a text ends inside an escape is told by the run of backslashes at
its end alone, as the character before the run begins no escape. -/
theorem dangling_mem_scan_iff (s : List Char) :
    Piece.dangling ∈ scan s ↔ backslashesAtEnd s % 2 = 1 := by
  induction s using text_induction with
  | nil => simp [scan, backslashesAtEnd]
  | dangling => simp [scan, backslashesAtEnd]
  | plain c rest solid ih =>
    rw [scan_plain solid, backslashesAtEnd_cons, if_neg fun both => solid both.2, ← ih]
    simp
  | escape letter rest ih =>
    have parity : backslashesAtEnd ('\\' :: letter :: rest) % 2 = backslashesAtEnd rest % 2 := by
      have bound := backslashesAtEnd_le rest
      rw [backslashesAtEnd_cons, backslashesAtEnd_cons, List.length_cons]
      by_cases all : backslashesAtEnd rest = rest.length ∧ letter = '\\'
      · simp only [if_pos all, true_and, if_true]
        omega
      · rw [if_neg all, if_neg fun both => by omega]
    rw [scan_escape, parity, ← ih]
    simp

/-- A known escape is one character longer than what it denotes, and nothing
else differs from what it means. -/
theorem length_written (piece : Piece) :
    piece.meant.length + (if piece.isKnown then 1 else 0) = piece.written.length ∧
      (piece.isKnown = false → piece.meant = piece.written) := by
  cases piece with
  | plain c => exact ⟨rfl, fun _ => rfl⟩
  | dangling => exact ⟨rfl, fun _ => rfl⟩
  | escape letter =>
    cases found : known.lookup letter with
    | some c => simp [meant, isKnown, written, found]
    | none => simp [meant, isKnown, written, found]

end Piece

/-- The text gets shorter by one character for each known escape. -/
theorem length_unescape (s : List Char) :
    (unescape s).length + (Piece.scan s).countP Piece.isKnown = s.length := by
  have counted (pieces : List Piece) :
      (pieces.flatMap Piece.meant).length + pieces.countP Piece.isKnown =
        (pieces.flatMap Piece.written).length := by
    induction pieces with
    | nil => rfl
    | cons piece rest ih =>
      have one := piece.length_written.1
      simp only [List.flatMap_cons, List.length_append, List.countP_cons]
      omega
  rw [Piece.unescape_eq, counted, Piece.written_scan]

theorem unescape_eq_self_iff (s : List Char) :
    unescape s = s ↔ ∀ piece ∈ Piece.scan s, piece.isKnown = false := by
  constructor
  · intro same piece member
    have length := length_unescape s
    rw [same] at length
    have none : (Piece.scan s).countP Piece.isKnown = 0 := by omega
    exact Bool.eq_false_iff.mpr (List.countP_eq_zero.mp none piece member)
  · intro unknown
    have same : (Piece.scan s).flatMap Piece.meant = (Piece.scan s).flatMap Piece.written :=
      List.flatMap_congr fun piece member => piece.length_written.2 (unknown piece member)
    rw [Piece.unescape_eq, same, Piece.written_scan]

theorem unescape_append {a : List Char} (whole : backslashesAtEnd a % 2 = 0) (b : List Char) :
    unescape (a ++ b) = unescape a ++ unescape b := by
  have dangles : Piece.dangling ∉ Piece.scan a := by
    rw [Piece.dangling_mem_scan_iff]
    omega
  rw [Piece.unescape_eq, Piece.unescape_eq, Piece.unescape_eq, Piece.scan_append dangles,
    List.flatMap_append]

/-- Whatever way is chosen for each of its characters, a text is read back. -/
theorem unescape_spelled {pieces : List Piece} {s : List Char}
    (spells : List.Forall₂ Piece.Spells pieces s) : unescape (pieces.flatMap Piece.written) = s := by
  induction spells with
  | nil => rfl
  | @cons piece c pieces s spells _ ih =>
    rw [List.flatMap_cons]
    cases spells with
    | plain solid => rw [Piece.written, List.singleton_append, unescape_cons solid, ih]
    | @escape letter _ member =>
      have found : ∀ pair ∈ Piece.known, resolve pair.1 = [pair.2] := by decide
      rw [Piece.written, List.cons_append, List.singleton_append, unescape_escape, ih,
        found (letter, c) member]
      rfl

/-- Resolving escapes goes piece by piece. It may be done in two parts unless
a cut goes through an escape, undoes every way of writing a text, and never
makes a text longer. A text stays as it is exactly if it holds none of the
known escapes, and so does a backslash at the very end. -/
theorem unescaped_by_pieces (a b : String) :
    (backslashesAtEnd a.toList % 2 = 0 →
      unescaped (a ++ b) = unescaped a ++ unescaped b ∧
      unescaped (a ++ "\\") = unescaped a ++ "\\") ∧
    (∀ pieces, List.Forall₂ Piece.Spells pieces a.toList →
      unescaped (String.ofList (pieces.flatMap Piece.written)) = a) ∧
    (unescaped a).length ≤ a.length ∧
    (unescaped a = a ↔
      ∀ letter, Piece.escape letter ∈ Piece.scan a.toList → Piece.known.lookup letter = none) := by
  refine ⟨fun whole => ?_, fun pieces spells => ?_, ?_, ?_⟩
  · have parts (b : String) : unescaped (a ++ b) = unescaped a ++ unescaped b := by
      rw [unescaped, String.toList_append, unescape_append whole, String.ofList_append]
      rfl
    exact ⟨parts b, parts "\\"⟩
  · rw [unescaped, String.toList_ofList, unescape_spelled spells, String.ofList_toList]
  · have length := length_unescape a.toList
    rw [unescaped, String.length_ofList, ← String.length_toList]
    omega
  · have texts : unescaped a = a ↔ unescape a.toList = a.toList := by
      rw [← String.toList_inj, unescaped, String.toList_ofList]
    rw [texts, unescape_eq_self_iff]
    constructor
    · intro unknown letter member
      have none := unknown _ member
      simpa [Piece.isKnown] using none
    · intro unknown piece member
      cases piece with
      | plain c => rfl
      | dangling => rfl
      | escape letter => simp [Piece.isKnown, unknown letter member]

/-- Two backslashes before a letter, a line feed written as an escape, and a
letter without a meaning of its own. -/
theorem unescaped_by_pieces_of_three :
    unescaped ("\\\\" ++ "n") = unescaped "\\\\" ++ unescaped "n" ∧
    unescaped ("\\\\" ++ "\\") = unescaped "\\\\" ++ "\\" ∧
    unescaped (String.ofList ([Piece.plain 'a', .escape 'n'].flatMap Piece.written)) = "a\n" ∧
    unescaped "\\q" = "\\q" := by
  obtain ⟨first, last⟩ := (unescaped_by_pieces "\\\\" "n").1 (by decide)
  have spells : List.Forall₂ Piece.Spells [Piece.plain 'a', .escape 'n'] "a\n".toList :=
    .cons (.plain (by decide)) (.cons (.escape (by decide)) .nil)
  refine ⟨first, last, (unescaped_by_pieces "a\n" "").2.1 _ spells, ?_⟩
  refine (unescaped_by_pieces "\\q" "").2.2.2.mpr fun letter member => ?_
  have only : letter = 'q' := by simpa [Piece.scan] using member
  subst only
  decide

end RuleForest
