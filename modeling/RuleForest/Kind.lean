namespace RuleForest

/-- Coarse classes of tokens. Options ignore whole groups, and the groups
decide which tokens may stand where an element is expected. -/
inductive Group where
  | value
  | string
  | variable
  | function
  | squareBracket
  | parenthesis
  | separator
  | operator
  | logical
  | space
  | comment
deriving DecidableEq, Repr, Inhabited

/-- Every group, in the alphabetical order of the names. -/
def Group.all : List Group :=
  [.comment, .function, .logical, .operator, .parenthesis, .separator, .space, .squareBracket,
    .string, .value, .variable]

def Group.name : Group → String
  | .value => "VALUE"
  | .string => "STRING"
  | .variable => "VARIABLE"
  | .function => "FUNCTION"
  | .squareBracket => "SQUARE_BRACKET"
  | .parenthesis => "PARENTHESIS"
  | .separator => "SEPARATOR"
  | .operator => "OPERATOR"
  | .logical => "LOGICAL"
  | .space => "SPACE"
  | .comment => "COMMENT"

def Group.ofName? (name : String) : Option Group :=
  Group.all.find? fun group => group.name = name

theorem Group.mem_all (group : Group) : group ∈ Group.all := by
  cases group <;> decide

theorem Group.ofName?_name (group : Group) : Group.ofName? group.name = some group := by
  cases group <;> decide

/-- The groups that may stand as an element of a list. An array is the one
element whose opener lies outside them. -/
def Group.isElement : Group → Bool
  | .value | .string | .variable | .function => true
  | _ => false

/-- The kinds of tokens that rules are written with. -/
inductive Kind where
  | atom
  | integer
  | float
  | bool
  | null
  | string
  | variable
  | function
  | openSquare
  | closeSquare
  | openParen
  | closeParen
  | comma
  | equal
  | strictEqual
  | unequal
  | strictUnequal
  | less
  | lessEqual
  | greater
  | greaterEqual
  | within
  | notWithin
  | both
  | either
  | negation
  | space
  | newline
  | comment
deriving DecidableEq, Repr, Inhabited

def Kind.all : List Kind :=
  [.atom, .integer, .float, .bool, .null, .string, .variable, .function, .openSquare,
    .closeSquare, .openParen, .closeParen, .comma, .equal, .strictEqual, .unequal,
    .strictUnequal, .less, .lessEqual, .greater, .greaterEqual, .within, .notWithin, .both,
    .either, .negation, .space, .newline, .comment]

def Kind.name : Kind → String
  | .atom => "ATOM"
  | .integer => "INTEGER"
  | .float => "FLOAT"
  | .bool => "BOOL"
  | .null => "NULL"
  | .string => "STRING"
  | .variable => "VARIABLE"
  | .function => "FUNCTION"
  | .openSquare => "LSQB"
  | .closeSquare => "RSQB"
  | .openParen => "LPAR"
  | .closeParen => "RPAR"
  | .comma => "COMMA"
  | .equal => "EQ"
  | .strictEqual => "EQ_STRICT"
  | .unequal => "NEQ"
  | .strictUnequal => "NEQ_STRICT"
  | .less => "LT"
  | .lessEqual => "LTE"
  | .greater => "GT"
  | .greaterEqual => "GTE"
  | .within => "IN"
  | .notWithin => "NOT_IN"
  | .both => "AND"
  | .either => "OR"
  | .negation => "NEG"
  | .space => "SPACE"
  | .newline => "NEWLINE"
  | .comment => "COMMENT"

def Kind.ofName? (name : String) : Option Kind :=
  Kind.all.find? fun kind => kind.name = name

def Kind.group : Kind → Group
  | .atom | .integer | .float | .bool | .null => .value
  | .string => .string
  | .variable => .variable
  | .function => .function
  | .openSquare | .closeSquare => .squareBracket
  | .openParen | .closeParen => .parenthesis
  | .comma => .separator
  | .equal | .strictEqual | .unequal | .strictUnequal | .less | .lessEqual | .greater
  | .greaterEqual | .within | .notWithin => .operator
  | .both | .either | .negation => .logical
  | .space | .newline => .space
  | .comment => .comment

/-- A composite kind does not stand for itself: reading it makes a leaf or
a tree. -/
def Kind.isComposite : Kind → Bool
  | .string | .openSquare | .function => true
  | _ => false

/-- The kinds that an element of a list may begin with. -/
def Kind.startsElement (kind : Kind) : Bool :=
  kind.group.isElement || kind = .openSquare

theorem Kind.mem_all (kind : Kind) : kind ∈ Kind.all := by
  cases kind <;> decide

theorem Kind.ofName?_name (kind : Kind) : Kind.ofName? kind.name = some kind := by
  cases kind <;> decide

end RuleForest
