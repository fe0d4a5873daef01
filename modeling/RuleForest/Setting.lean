import RuleForest.Kind
import RuleForest.ValueText

namespace RuleForest

/-- What the readers of one rule share: the groups they pass over, and how
many structures may stand inside each other. -/
structure Options where
  ignores : Group → Bool
  maxDepth : Int

namespace Options

def standard : Options :=
  ⟨fun group => group = .space || group = .comment, 64⟩

instance : Inhabited Options := ⟨standard⟩

/-- The options that pass over just the given groups. -/
def ignoring (groups : List Group) (maxDepth : Int) : Options :=
  ⟨fun group => groups.contains group, maxDepth⟩

/-- The ignored groups in the order of their names. -/
def ignored (o : Options) : List Group :=
  Group.all.filter o.ignores

theorem mem_ignored (o : Options) (group : Group) :
    group ∈ o.ignored ↔ o.ignores group = true := by
  simp [ignored, group.mem_all]

end Options

/-- The name of the setting that limits the nesting. -/
def depthSetting : String := "RULETREE_MAX_DEPTH"

inductive SettingFault where
  | notInteger (raw : String)
  | notPositive (n : Int)
deriving DecidableEq, Repr

def SettingFault.message : SettingFault → String
  | .notInteger raw => depthSetting ++ " must be an integer, got " ++ quoted raw
  | .notPositive n => depthSetting ++ " must be positive, got " ++ n.repr

namespace Options

/-- The options under a raw setting. An absent or blank one leaves the
standard; any other has to be a positive integer. -/
def ofDepthSetting : Option String → Except SettingFault Options
  | none => .ok standard
  | some raw =>
    if raw.toList.all isBlank then .ok standard
    else
      match Numeral.integer? raw with
      | none => .error (.notInteger raw)
      | some n =>
        if n < 1 then .error (.notPositive n) else .ok { standard with maxDepth := n }

def ofSettings (setting? : String → Option String) : Except SettingFault Options :=
  ofDepthSetting (setting? depthSetting)

end Options

end RuleForest
