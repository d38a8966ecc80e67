import Weaving.Edit.Basic

/-!
# Call sites

Finding a call by the method that it goes to, and the place in front of it where its arguments
start to be pushed. That place is found by walking back from the call and adding up the nominal
stack effects until they account for all that the call takes from the stack, which is right for
code without jumps between the two.
-/

namespace Weaving

/-- Where the arguments of a call start to be pushed. -/
inductive ArgumentStart where
  /-- At the instruction with the index. -/
  | found (index : Nat)
  /-- The call takes nothing from the stack. -/
  | alreadySatisfied
  /-- The code before the call does not push as many values as the call takes. -/
  | notFound
deriving DecidableEq, Repr

/-- The instruction calls a method that the pattern admits. -/
def Instruction.callsMatch (md : Metadata) (target : MethodPattern) (i : Instruction) : Bool :=
  i.callee?.any (target.admits md)

/-- The nominal stack effect of the instruction at the index. -/
def Code.deltaAt (code : Code) (index : Nat) : Int :=
  code[index]?.elim 0 (·.opcode.netEffect)

/-- Walk back from the index, with `depth` values accounted for behind it, to the nearest
instruction from which on `needed` values are. -/
def Code.walkBack (code : Code) (needed : Int) : (index : Nat) → (depth : Int) → Option Nat
  | 0, _ => none
  | index + 1, depth =>
    let depth := depth + code.deltaAt index
    if depth = needed then some index else code.walkBack needed index depth

namespace Edit

variable {σ : Type}

/-- Go to the nearest call that the pattern admits, at the position or behind it. -/
def seekCall (md : Metadata) (target : MethodPattern) : Edit σ Unit := do
  search .forward (·.callsMatch md target)
  let c ← cursor
  if c.isValid then
    record (.callFound target c.position.toNat)
  else
    throw (.callNotFound target)

/-- Go to where the arguments start to be pushed for the nearest call that the pattern admits.
When that is not found, the cursor stays on the call. -/
def seekArguments (md : Metadata) (target : MethodPattern) : Edit σ ArgumentStart := do
  seekCall md target
  let c ← cursor
  let call := c.position.toNat
  let needed := (c.code[call]?.bind (·.callee?)).elim 0 fun m => (md.method m).consumption
  if needed = 0 then
    return .alreadySatisfied
  else
    match c.code.walkBack needed call 0 with
    | some start =>
      record (.argumentsFound target call start)
      advance ((start : Int) - call)
      return .found start
    | none =>
      let failure : Failure := .argumentLoad needed target call
      record (.searchFailed failure)
      modifyCursor fun c => { c with failure := some failure }
      return .notFound

/-- Go behind the nearest call that the pattern admits, and behind the `pop` of its result if
that follows. -/
def seekAfterCall (md : Metadata) (target : MethodPattern) : Edit σ Unit := do
  seekCall md target
  advance 1
  if (← cursor).opcode? = some .pop then
    advance 1

end Edit

end Weaving
