import Weaving.Edit.Basic

/-!
# Guards

Guards turn the soft outcome of a search into an error, or into a report. They leave the cursor
where it is.
-/

namespace Weaving.Edit

variable {σ : Type}

/-- The report of a cursor that is on no instruction. It is logged too if the settings say so. -/
def report (context : String) : Edit σ (Option Report) := do
  let c ← cursor
  if c.isValid then
    return none
  else
    let report : Report := ⟨context, c.failure⟩
    if c.settings.logReports then
      record (.failureReported report)
    return some report

/-- Require the cursor to be on an instruction. -/
def requireInstruction (explanation : String) : Edit σ Unit := do
  let c ← cursor
  if c.isValid then
    pure ()
  else
    throw (.invalidCursor explanation c.failure)

/-- Require the patterns to match right at the position. Named patterns capture what they met. -/
def requireMatch (explanation : String) (patterns : List Pattern) : Edit σ Unit := do
  requireInstruction explanation
  let c ← cursor
  let index := c.position.toNat
  if Pattern.matchAll patterns c.code index then
    setCursor { c with captures := Pattern.capture patterns c.code index [] }
  else
    throw (.patternMismatch explanation c.position)

/-- Require the patterns to match somewhere from the position on. -/
def requireFound (explanation : String) (direction : Direction) (patterns : List Pattern) :
    Edit σ Unit := do
  requireInstruction explanation
  let c ← cursor
  match c.nearestMatch? direction c.position patterns with
  | some _ => pure ()
  | none => throw (.patternMismatch explanation c.position)

/-- Require a condition on the cursor. -/
def require (explanation : String) (condition : Cursor → Bool) : Edit σ Unit := do
  if condition (← cursor) then
    pure ()
  else
    throw (.conditionFailed explanation)

end Weaving.Edit
