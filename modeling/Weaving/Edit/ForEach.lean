import Weaving.Edit.Basic

/-!
# Repetition

The last match is repeated over the rest of the code, with an action at each place where it
matches. After each run of the action the match is searched for again from where the action left
the cursor. Nothing keeps an action from moving the cursor back for ever, so a repetition is
given a number of rounds.
-/

namespace Weaving.Edit

variable {σ : Type}

/-- Run the action at the position and search on, while the cursor is on an instruction. The
result is the number of runs, counted from `count`. -/
def forEachFrom (q : Query) (action : Edit σ Unit) : (rounds count : Nat) → Edit σ Nat
  | 0, count => do
    if (← cursor).isValid then throw .roundsExhausted else return count
  | rounds + 1, count => do
    if (← cursor).isValid then
      action
      let c ← cursor
      land (c.findFrom (q.restart c.position) q)
      forEachFrom q action rounds (count + 1)
    else
      return count

/-- Run the action at the place of the last match and at all those that follow. The match is
forgotten. -/
def forEachMatch (rounds : Nat) (action : Edit σ Unit) : Edit σ Nat := do
  match (← cursor).remembered with
  | none => throw .noPriorMatch
  | some q =>
    modifyCursor fun c => { c with remembered := none }
    let count ← forEachFrom q action rounds 0
    record (.repeated count q.patterns)
    modifyCursor fun c => { c with remembered := none }
    return count

/-- Run the action at the place of the last match and at all those that follow, and run
`notFound` on the failure if the action never ran. -/
def forEachMatchOrElse (rounds : Nat) (action : Edit σ Unit)
    (notFound : Option Failure → Edit σ Unit) : Edit σ Nat := do
  let count ← forEachMatch rounds action
  if count = 0 then
    notFound (← cursor).failure
  return count

end Weaving.Edit
