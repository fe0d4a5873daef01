namespace RuleForest

/-- What the character after a backslash stands for, if the escape is known. -/
def escape? : Char → Option Char
  | '\\' => some '\\'
  | '"' => some '"'
  | '\'' => some '\''
  | 'n' => some '\n'
  | 't' => some '\t'
  | 'r' => some '\r'
  | _ => none

/-- A backslash and the character after it. An unknown escape keeps both. -/
def resolve (c : Char) : List Char :=
  match escape? c with
  | some meant => [meant]
  | none => ['\\', c]

/-- Resolves the escapes from left to right. Each backslash takes the next
character with it, and one at the very end stays. -/
def unescape : List Char → List Char
  | [] => []
  | [c] => [c]
  | c :: d :: rest => if c = '\\' then resolve d ++ unescape rest else c :: unescape (d :: rest)

/-- A text with its escapes resolved. -/
def unescaped (s : String) : String :=
  String.ofList (unescape s.toList)

theorem unescape_cons {c : Char} (plain : c ≠ '\\') (rest : List Char) :
    unescape (c :: rest) = c :: unescape rest := by
  cases rest with
  | nil => rfl
  | cons d rest => rw [unescape, if_neg plain]

theorem unescape_escape (d : Char) (rest : List Char) :
    unescape ('\\' :: d :: rest) = resolve d ++ unescape rest := by
  rw [unescape, if_pos rfl]

end RuleForest
