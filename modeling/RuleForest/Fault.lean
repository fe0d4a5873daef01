import RuleForest.Category
import RuleForest.Node

namespace RuleForest

/-- What can be wrong with the tokens of a rule. -/
inductive Cause where
  | malformedString
  | unterminated (shape : Shape)
  | tooDeep (shape : Shape) (limit : Int)
  | missingParen (name : String)
  | unexpectedComma
  | unexpectedToken (kind : Kind) (shape : Shape)
  | missingComma (shape : Shape)
  | trailingComma (shape : Shape)
  | malformedNumeral (kind : Kind) (value : Value)
  | noValue (kind : Kind)
  | unexpectedLeaf (label : String)
deriving DecidableEq, Repr

namespace Cause

def category : Cause → Category
  | .unterminated _ => .unterminated
  | .tooDeep _ _ => .tooDeep
  | .missingParen _ | .unexpectedComma | .unexpectedToken _ _ | .missingComma _
  | .trailingComma _ => .malformedList
  | .malformedString | .malformedNumeral _ _ | .noValue _ | .unexpectedLeaf _ => .parse

def text : Cause → String
  | .malformedString => "Malformed string literal"
  | .unterminated shape => "Unterminated " ++ shape.noun
  | .tooDeep shape limit => shape.title ++ " nested deeper than " ++ limit.repr ++ " levels"
  | .missingParen name => "Expected '(' after function name '" ++ name ++ "'"
  | .unexpectedComma => "Unexpected ','"
  | .unexpectedToken kind shape => "Unexpected " ++ kind.name ++ " token in " ++ shape.noun
  | .missingComma shape => "Missing ',' in " ++ shape.noun
  | .trailingComma shape => "Trailing ',' in " ++ shape.noun
  | .malformedNumeral kind value =>
    "Malformed " ++ kind.name ++ " literal " ++ value.written
  | .noValue kind => kind.name ++ " token has no value"
  | .unexpectedLeaf label => "Unexpected " ++ label ++ " node"

end Cause

/-- A parse fault as it is reported: a text of some family, and the token it
blames. -/
structure Notice where
  category : Category
  text : String
  token : Option Token := none
deriving DecidableEq, Repr

namespace Notice

def position (n : Notice) : Option Int :=
  n.token.map (·.position)

/-- The text, followed by the place of the blamed token. -/
def message (n : Notice) : String :=
  match n.token with
  | none => n.text
  | some t => n.text ++ " at position " ++ t.position.repr ++ " on line " ++ t.line.repr

end Notice

/-- Why an operation has no result. -/
inductive Fault where
  | position (index length : Int)
  | parse (cause : Cause) (token : Option Token)
  | undefinedVariable (name : String)
  | undefinedFunction (name : String)
  /-- A function of the rules refused its arguments with a text of its own. -/
  | raised (message : String)
  | wrongShape (expected : Shape) (found : Node)
  | notNumeric
  | wrongArity
  | overflow
  | missingChild
  | childless
  /-- A value has no written form where one is asked for. -/
  | unwritable
deriving DecidableEq, Repr

namespace Fault

def blame (cause : Cause) (t : Token) : Fault :=
  .parse cause (some t)

/-- Another token than the opening bracket follows the name of a call. The
fault tells that name, so that writing it can be what fails. -/
def missingParen (first t : Token) : Fault :=
  match first.value.shown? with
  | some name => .blame (.missingParen name) t
  | none => .unwritable

theorem missingParen_of_writable {first : Token} (writable : first.value.isWritable = true)
    (t : Token) : ∃ name, missingParen first t = .blame (.missingParen name) t := by
  rw [missingParen, Value.shown?_eq_some_iff.mpr ⟨writable, rfl⟩]
  exact ⟨_, rfl⟩

theorem missingParen_of_unwritable {first : Token} (hidden : first.value.isWritable = false)
    (t : Token) : missingParen first t = .unwritable := by
  rw [missingParen, Value.shown?_eq_none_iff.mpr hidden]

theorem missingParen_cases (first t : Token) :
    (first.value.isWritable = true ∧
        ∃ name, missingParen first t = .blame (.missingParen name) t) ∨
      (first.value.isWritable = false ∧ missingParen first t = .unwritable) := by
  cases writable : first.value.isWritable with
  | true => exact Or.inl ⟨rfl, missingParen_of_writable writable t⟩
  | false => exact Or.inr ⟨rfl, missingParen_of_unwritable writable t⟩

theorem blame_of_missingParen {first t u : Token} {cause : Cause}
    (same : missingParen first t = .blame cause u) :
    u = t ∧ ∃ name, cause = .missingParen name := by
  rcases missingParen_cases first t with ⟨_, name, blamed⟩ | ⟨_, unwritable⟩
  · rw [blamed] at same
    cases same
    exact ⟨rfl, name, rfl⟩
  · rw [unwritable] at same
    cases same

/-- A node is not of the expected shape. The fault tells the node. -/
def otherShape (expected : Shape) (found : Node) : Fault :=
  if found.isWritable then .wrongShape expected found else .unwritable

def category : Fault → Category
  | .position _ _ => .position
  | .parse cause _ => cause.category
  | .undefinedVariable _ => .undefinedVariable
  | .undefinedFunction _ => .undefinedFunction
  | .raised _ => .runtime
  | .wrongShape _ _ | .notNumeric | .wrongArity => .mismatch
  | .overflow => .overflow
  | .missingChild => .index
  | .childless => .attribute
  | .unwritable => .invalid

def notice? : Fault → Option Notice
  | .parse cause token => some ⟨cause.category, cause.text, token⟩
  | _ => none

/-- The text of a fault. The last ones are told by their family alone. -/
def message? : Fault → Option String
  | .position index length =>
    some ("Cursor " ++ index.repr ++ " is outside of a stack of " ++ length.repr ++ " tokens")
  | .parse cause token => some (Notice.mk cause.category cause.text token).message
  | .undefinedVariable name => some ("Undefined variable '" ++ name ++ "'")
  | .undefinedFunction name => some ("Undefined function '" ++ name ++ "'")
  | .raised message => some message
  | .wrongShape expected found =>
    some ("Expected " ++ expected.phrase ++ " node, got " ++ found.written)
  | .notNumeric | .wrongArity | .overflow | .missingChild | .childless | .unwritable => none

end Fault

end RuleForest
