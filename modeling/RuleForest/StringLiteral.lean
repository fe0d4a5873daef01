import RuleForest.Escape
import RuleForest.Traced

namespace RuleForest

namespace StringLiteral

/-- Whether no escape is cut off at the end and the quote does not occur
outside of escapes. -/
def isClosed (quote : Char) : List Char → Bool
  | [] => true
  | [c] => c ≠ '\\' && c ≠ quote
  | c :: d :: rest =>
    if c = '\\' then isClosed quote rest else c ≠ quote && isClosed quote (d :: rest)

theorem isClosed_cons {quote c : Char} (plain : c ≠ '\\') (rest : List Char) :
    isClosed quote (c :: rest) = (c ≠ quote && isClosed quote rest) := by
  cases rest with
  | nil => simp [isClosed, plain]
  | cons d rest => rw [isClosed, if_neg plain]

theorem isClosed_escape (quote d : Char) (rest : List Char) :
    isClosed quote ('\\' :: d :: rest) = isClosed quote rest := by
  rw [isClosed, if_pos rfl]

def isQuote (c : Char) : Bool :=
  c = '\'' || c = '"'

/-- The body of a literal: what stands between two equal quotes. -/
def body? : List Char → Option (List Char)
  | [] => none
  | quote :: rest =>
    if isQuote quote && rest.getLast? = some quote && isClosed quote rest.dropLast then
      some rest.dropLast
    else none

/-- The leaf of a string token. It ends where the raw literal ends, however
much its escapes shorten the text. -/
def leaf (t : Token) : Except Fault Leaf :=
  match t.value with
  | .text raw =>
    match body? raw.toList with
    | some body =>
      .ok {
        label := Leaf.stringLabel
        text := String.ofList (unescape body)
        start := some t.position
        line := some t.line
        stop := some (t.position + raw.length) }
    | none => .error (.blame .malformedString t)
  | _ => .error (.blame .malformedString t)

end StringLiteral

end RuleForest
