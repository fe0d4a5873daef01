import RuleForest.Binary64

namespace RuleForest

/-- What a token carries and what a rule folds to. Booleans, integers and
doubles stay apart even where they are numerically equal. -/
inductive Value where
  | null
  | bool (b : Bool)
  | int (n : Int)
  | float (x : Binary64)
  | text (s : String)
  | list (items : List Value)
deriving Repr, Inhabited

namespace Value

mutual

def decEq : (a b : Value) → Decidable (a = b)
  | .null, .null => isTrue rfl
  | .bool a, .bool b =>
    if same : a = b then isTrue (congrArg Value.bool same)
    else isFalse fun equal => same (Value.bool.inj equal)
  | .int a, .int b =>
    if same : a = b then isTrue (congrArg Value.int same)
    else isFalse fun equal => same (Value.int.inj equal)
  | .float a, .float b =>
    if same : a = b then isTrue (congrArg Value.float same)
    else isFalse fun equal => same (Value.float.inj equal)
  | .text a, .text b =>
    if same : a = b then isTrue (congrArg Value.text same)
    else isFalse fun equal => same (Value.text.inj equal)
  | .list as, .list bs =>
    match decEqs as bs with
    | isTrue same => isTrue (congrArg Value.list same)
    | isFalse differ => isFalse fun equal => differ (Value.list.inj equal)
  | .null, .bool _ | .null, .int _ | .null, .float _ | .null, .text _ | .null, .list _
  | .bool _, .null | .bool _, .int _ | .bool _, .float _ | .bool _, .text _ | .bool _, .list _
  | .int _, .null | .int _, .bool _ | .int _, .float _ | .int _, .text _ | .int _, .list _
  | .float _, .null | .float _, .bool _ | .float _, .int _ | .float _, .text _ | .float _, .list _
  | .text _, .null | .text _, .bool _ | .text _, .int _ | .text _, .float _ | .text _, .list _
  | .list _, .null | .list _, .bool _ | .list _, .int _ | .list _, .float _ | .list _, .text _ =>
    isFalse nofun

def decEqs : (as bs : List Value) → Decidable (as = bs)
  | [], [] => isTrue rfl
  | [], _ :: _ => isFalse nofun
  | _ :: _, [] => isFalse nofun
  | a :: as, b :: bs =>
    match decEq a b, decEqs as bs with
    | isTrue same, isTrue rest => isTrue (congr (congrArg List.cons same) rest)
    | isFalse differ, _ => isFalse fun equal => differ (List.cons.inj equal).1
    | _, isFalse differ => isFalse fun equal => differ (List.cons.inj equal).2

end

instance : DecidableEq Value := decEq

end Value

end RuleForest
