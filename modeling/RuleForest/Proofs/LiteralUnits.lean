import RuleForest.Proofs.CursorPlace
import RuleForest.Proofs.EscapePieces
import RuleForest.Proofs.LiteralBody
import RuleForest.Proofs.ReadingSteps

namespace RuleForest

/-- What may stand between two quotes: a character other than these and the
backslash, or a backslash with any character. -/
def Piece.isUnit (quote : Char) : Piece → Prop
  | .plain c => c ≠ quote ∧ c ≠ '\\'
  | .escape _ => True
  | .dangling => False

namespace StringLiteral

/-- A raw literal, its quote, and the units between its two quotes. -/
structure Consists (quote : Char) (units : List Piece) (raw : List Char) : Prop where
  quotes : quote = '\'' ∨ quote = '"'
  fits : ∀ piece ∈ units, piece.isUnit quote
  written : raw = quote :: (units.flatMap Piece.written ++ [quote])

section Units

variable {quote other : Char} {units others : List Piece} {raw body : List Char}

theorem scan_units (fits : ∀ piece ∈ units, piece.isUnit quote) :
    Piece.scan (units.flatMap Piece.written) = units := by
  refine Piece.scan_written (fun dangling => fits _ dangling) fun backslash => ?_
  exact (fits _ backslash).2 rfl

/-- A literal can be taken apart in one way only. -/
theorem Consists.unique (first : Consists quote units raw) (second : Consists other others raw) :
    quote = other ∧ units = others := by
  have same := first.written.symm.trans second.written
  obtain ⟨rfl, rest⟩ := List.cons.inj same
  have bodies := List.append_cancel_right rest
  refine ⟨rfl, ?_⟩
  rw [← scan_units first.fits, bodies, scan_units second.fits]

end Units

end StringLiteral

end RuleForest
