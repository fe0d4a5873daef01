import RuleForest.Setting
import RuleForest.Traced

namespace RuleForest

/-- A structure that cannot be located: the fault, and how far the cursor
has moved when it shows. -/
structure Stop where
  advances : Nat
  fault : Fault
deriving DecidableEq, Repr

/-- What a structure encloses, counted from the token after its first one:
the tokens up to its opening bracket, and those between its brackets. -/
structure Extent where
  lead : Nat
  inner : List Token
deriving DecidableEq, Repr

/-- The distance from the first token of the structure to its closer. -/
def Extent.advances (extent : Extent) : Nat :=
  extent.lead + extent.inner.length + 1

namespace Shape

/-- The tokens before the closer that matches a bracket opened earlier, with
`level` further ones open. Only brackets of this shape are counted. -/
def enclosed (shape : Shape) : Nat → List Token → Option (List Token)
  | _, [] => none
  | level, t :: rest =>
    if t.kind = shape.opener then (shape.enclosed (level + 1) rest).map (t :: ·)
    else if t.kind = shape.closer then
      if level = 0 then some [] else (shape.enclosed (level - 1) rest).map (t :: ·)
    else (shape.enclosed level rest).map (t :: ·)

/-- No closer is left for the structure that the token begins. -/
def unterminated (shape : Shape) (first : Token) (rest : List Token) : Stop :=
  ⟨rest.length + 1, .blame (.unterminated shape) first⟩

/-- How many tokens after the first belong before the content. An array
begins with its bracket; the name of a call may be followed by ignored tokens. -/
def lead (shape : Shape) (o : Options) (first : Token) (rest : List Token) : Except Stop Nat :=
  match shape with
  | .array => .ok 0
  | .call =>
    let gap := (rest.takeWhile fun t => o.ignores t.group).length
    match rest[gap]? with
    | none => .error (shape.unterminated first rest)
    | some t =>
      if t.kind = .openParen then .ok (gap + 1)
      else .error ⟨gap + 1, .missingParen first t⟩

/-- Finds the extent of a structure that begins at `first`. The nesting limit
is checked before anything is read, and the closer before the content. -/
def locate (shape : Shape) (o : Options) (depth : Int) (first : Token) (rest : List Token) :
    Except Stop Extent :=
  if o.maxDepth ≤ depth then .error ⟨0, .blame (.tooDeep shape o.maxDepth) first⟩
  else
    match shape.lead o first rest with
    | .error stop => .error stop
    | .ok lead =>
      match shape.enclosed 0 (rest.drop lead) with
      | some inner => .ok ⟨lead, inner⟩
      | none => .error (shape.unterminated first rest)

theorem length_enclosed {shape : Shape} {level : Nat} {tokens inner : List Token}
    (found : shape.enclosed level tokens = some inner) : inner.length < tokens.length := by
  induction tokens generalizing level inner with
  | nil => simp [enclosed] at found
  | cons t rest ih =>
    rw [enclosed] at found
    split at found
    · obtain ⟨tail, within, rfl⟩ := Option.map_eq_some_iff.1 found
      exact Nat.succ_lt_succ (ih within)
    · split at found
      · split at found
        · cases found
          exact Nat.succ_pos _
        · obtain ⟨tail, within, rfl⟩ := Option.map_eq_some_iff.1 found
          exact Nat.succ_lt_succ (ih within)
      · obtain ⟨tail, within, rfl⟩ := Option.map_eq_some_iff.1 found
        exact Nat.succ_lt_succ (ih within)

/-- The content is shorter than what follows the first token, so reading it
again comes to an end whatever the nesting limit. -/
theorem length_inner_locate {shape : Shape} {o : Options} {depth : Int} {first : Token}
    {rest : List Token} {extent : Extent} (found : shape.locate o depth first rest = .ok extent) :
    extent.inner.length < rest.length := by
  unfold locate at found
  split at found
  · cases found
  · split at found
    · cases found
    · split at found
      · rename_i enclosing
        cases found
        have shorter := length_enclosed enclosing
        rw [List.length_drop] at shorter
        simp only
        omega
      · cases found

end Shape

end RuleForest
