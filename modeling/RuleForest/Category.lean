namespace RuleForest

/-- The families of faults. Catching a family catches the faults of every
family below it. -/
inductive Category where
  | exception
  | lookup
  | index
  | position
  | parse
  | unterminated
  | malformedList
  | tooDeep
  | runtime
  | undefinedVariable
  | undefinedFunction
  | mismatch
  | arithmetic
  | overflow
  | attribute
  | invalid
deriving DecidableEq, Repr, Inhabited

namespace Category

def all : List Category :=
  [.exception, .lookup, .index, .position, .parse, .unterminated, .malformedList, .tooDeep,
    .runtime, .undefinedVariable, .undefinedFunction, .mismatch, .arithmetic, .overflow,
    .attribute, .invalid]

def name : Category → String
  | .exception => "Exception"
  | .lookup => "LookupError"
  | .index => "IndexError"
  | .position => "StreamPositionError"
  | .parse => "ParseError"
  | .unterminated => "UnterminatedStructureError"
  | .malformedList => "MalformedArgumentListError"
  | .tooDeep => "NestingTooDeepError"
  | .runtime => "RuleRuntimeError"
  | .undefinedVariable => "UndefinedVariableError"
  | .undefinedFunction => "UndefinedFunctionError"
  | .mismatch => "TypeError"
  | .arithmetic => "ArithmeticError"
  | .overflow => "OverflowError"
  | .attribute => "AttributeError"
  | .invalid => "ValueError"

def ofName? (name : String) : Option Category :=
  all.find? fun category => category.name = name

/-- The family directly above. -/
def parent? : Category → Option Category
  | .exception => none
  | .index => some .lookup
  | .position => some .index
  | .unterminated | .malformedList | .tooDeep => some .parse
  | .undefinedVariable | .undefinedFunction => some .runtime
  | .overflow => some .arithmetic
  | .lookup | .parse | .runtime | .mismatch | .arithmetic | .attribute | .invalid =>
    some .exception

/-- How many families stand above. -/
def level : Category → Nat
  | .exception => 0
  | .position => 3
  | .index | .unterminated | .malformedList | .tooDeep | .undefinedVariable
  | .undefinedFunction | .overflow => 2
  | .lookup | .parse | .runtime | .mismatch | .arithmetic | .attribute | .invalid => 1

theorem level_parent {category above : Category} (parent : category.parent? = some above) :
    above.level < category.level := by
  cases category <;> simp only [parent?, Option.some.injEq, reduceCtorEq] at parent <;>
    subst parent <;> decide

/-- The families above, the nearest first. -/
def ancestors (category : Category) : List Category :=
  match _parent : category.parent? with
  | none => []
  | some above => above :: above.ancestors
termination_by category.level
decreasing_by exact level_parent ‹_›

theorem ofName?_name (category : Category) : ofName? category.name = some category := by
  cases category <;> decide

end Category

end RuleForest
