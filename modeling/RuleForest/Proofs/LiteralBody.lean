import RuleForest.StringLiteral

namespace RuleForest

namespace StringLiteral

/-- What a backslash and the letter behind it are written for. -/
inductive Denotes (quote : Char) : Char → Char → Prop
  | backslash : Denotes quote '\\' '\\'
  | delimiter : Denotes quote quote quote
  | lineFeed : Denotes quote 'n' '\n'
  | tab : Denotes quote 't' '\t'
  | carriageReturn : Denotes quote 'r' '\r'

/-- The bodies that a text may be written as between two quotes. A character
stands for itself unless it is a backslash or the quote. -/
inductive Spelling (quote : Char) : List Char → List Char → Prop
  | nil : Spelling quote [] []
  | plain {c body text} : c ≠ '\\' → c ≠ quote → Spelling quote body text →
      Spelling quote (c :: body) (c :: text)
  | escaped {letter c body text} : Denotes quote letter c → Spelling quote body text →
      Spelling quote ('\\' :: letter :: body) (c :: text)

section Body

variable {quote : Char} {body text : List Char}

theorem Denotes.resolve_eq {letter c : Char} (quotes : isQuote quote = true)
    (denotes : Denotes quote letter c) : resolve letter = [c] := by
  cases denotes with
  | backslash => rfl
  | lineFeed => rfl
  | tab => rfl
  | carriageReturn => rfl
  | delimiter =>
    simp only [isQuote, Bool.or_eq_true, decide_eq_true_eq] at quotes
    rcases quotes with rfl | rfl <;> rfl

/-- No escape hides the closing quote, and no quote stands by itself. -/
theorem Spelling.closed (spelling : Spelling quote body text) : isClosed quote body = true := by
  induction spelling with
  | nil => rfl
  | plain solid other _ ih =>
    rw [isClosed_cons solid, ih, decide_eq_true other]
    rfl
  | escaped _ _ ih => rw [isClosed_escape, ih]

theorem Spelling.decoded (quotes : isQuote quote = true) (spelling : Spelling quote body text) :
    unescape body = text := by
  induction spelling with
  | nil => rfl
  | plain solid _ _ ih => rw [unescape_cons solid, ih]
  | escaped denotes _ ih =>
    rw [unescape_escape, ih, denotes.resolve_eq quotes]
    rfl

theorem body?_quoted (quotes : isQuote quote = true) (closed : isClosed quote body = true) :
    body? (quote :: (body ++ [quote])) = some body := by
  simp [body?, quotes, closed]

/-- A text is read back from every literal that it is written as. -/
theorem Spelling.leaf {t : Token} {raw text : String} (spelling : Spelling quote body text.toList)
    (quotes : isQuote quote = true) (value : t.value = .text raw)
    (written : raw.toList = quote :: (body ++ [quote])) :
    ∃ leaf, StringLiteral.leaf t = .ok leaf ∧ leaf.label = Leaf.stringLabel ∧ leaf.text = text := by
  have found : body? raw.toList = some body := by
    rw [written, body?_quoted quotes spelling.closed]
  have meant : String.ofList (unescape body) = text := by
    rw [spelling.decoded quotes, String.ofList_toList]
  simp only [StringLiteral.leaf, value, found, Except.ok.injEq, exists_eq_left', true_and]
  exact meant

end Body

end StringLiteral

end RuleForest
