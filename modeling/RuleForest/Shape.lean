import RuleForest.Kind

namespace RuleForest

/-- The two bracketed structures. Both are read alike and differ in their
brackets and in what stands before the opening one. -/
inductive Shape where
  | array
  | call
deriving DecidableEq, Repr, Inhabited

namespace Shape

/-- The label of the trees of this shape. -/
def label : Shape → String
  | .array => "array"
  | .call => "call"

def opener : Shape → Kind
  | .array => .openSquare
  | .call => .openParen

def closer : Shape → Kind
  | .array => .closeSquare
  | .call => .closeParen

/-- The shape within a sentence. -/
def noun : Shape → String
  | .array => "array"
  | .call => "function call"

/-- The shape at the start of a sentence. -/
def title : Shape → String
  | .array => "Array"
  | .call => "Function call"

def phrase : Shape → String
  | .array => "an array"
  | .call => "a call"

theorem opener_ne_closer (shape : Shape) : shape.opener ≠ shape.closer := by
  cases shape <;> decide

end Shape

end RuleForest
