import Weaving.Edit.Basic
import Weaving.Position

/-!
# Changes to the code

Operations that replace, insert and remove instructions. Each needs its positions to be in range
and fails otherwise, before it changes anything.
-/

namespace Weaving.Edit

variable {σ : Type}

/-! ## Checked positions -/

/-- Require an index to be in the code. -/
def checkIndex (index : Nat) : Edit σ Unit := do
  let c ← cursor
  if index < c.length then
    pure ()
  else
    throw (.positionOutOfRange (Position.ofIndex index) c.length)

/-- The index that lies `offset` away from the position. -/
def offsetIndex (offset : Int) : Edit σ Nat := do
  let c ← cursor
  match c.indexAt? offset with
  | some index => return index
  | none => throw (.positionOutOfRange (Position.saturate (c.position + offset)) c.length)

/-- The index of the position. -/
def currentIndex : Edit σ Nat := offsetIndex 0

/-- The index of the position, where instructions can be inserted; the sentinel past the end is
one. -/
def insertionIndex : Edit σ Nat := do
  let c ← cursor
  if 0 ≤ c.position ∧ c.position ≤ c.length then
    return c.position.toNat
  else
    throw (.positionOutOfRange c.position c.length)

/-! ## Replacing -/

/-- Replace the instruction at the position, with its labels and region marks. -/
def replace (i : Instruction) : Edit σ Unit := do
  let index ← currentIndex
  modifyCode (·.set index i)

/-- Change the instruction at the position; its absence is no error. The result says whether
there was one. -/
def modifyInstruction (f : Instruction → Instruction) : Edit σ Bool := do
  match (← cursor).indexAt? 0 with
  | none => return false
  | some index =>
    modifyCode (·.modify index f)
    return true

/-- Replace opcode and operand at the position; labels and region marks stay. -/
def setOperation (op : Opcode) (operand : Option Operand) : Edit σ Unit := do
  let index ← currentIndex
  modifyCode (·.modify index fun i => { i with opcode := op, operand := operand })

/-- Replace the opcode at the position. -/
def setOpcode (op : Opcode) : Edit σ Unit := do
  let index ← currentIndex
  modifyCode (·.modify index fun i => { i with opcode := op })

/-- Replace the operand at the position. -/
def setOperand (operand : Operand) : Edit σ Unit := do
  let index ← currentIndex
  modifyCode (·.modify index fun i => { i with operand := some operand })

/-- Run an edit and move on to the next instruction. -/
def thenAdvance (edit : Edit σ Unit) : Edit σ Unit := do
  edit
  advance 1

/-! ## Inserting -/

/-- Insert instructions in front of the position, which is then on the first of them. -/
def insert (more : Code) : Edit σ Unit := do
  let index ← insertionIndex
  modifyCode (·.insertAt index more)

/-- Insert instructions in front of the position and stay on the instruction that was there. -/
def emit (more : Code) : Edit σ Unit := do
  let index ← insertionIndex
  modifyCursor fun c =>
    { c with code := c.code.insertAt index more, position := (index + more.length : Nat) }

/-! ## Removing -/

/-- Remove the instruction at the position, which is then on the one that followed. -/
def remove : Edit σ Unit := do
  let index ← currentIndex
  modifyCode (·.eraseIdx index)

/-- Remove `count` instructions from the position on. The last of them lies `count - 1` further,
where the difference is read as a word with a sign: a huge count leads back before the position,
and if that is still in the code the range is inverted. -/
def removeNext (count : UInt64) : Edit σ Unit := do
  if count = 0 then
    pure ()
  else
    let first ← currentIndex
    let last ← offsetIndex (Position.ofIndex (count.toNat - 1))
    if last + 1 < first then
      throw (.invertedRange first last)
    else
      modifyCode (·.removeBetween first last)

/-- Remove the instructions between two indices, both included and in either order. A cursor
behind them stays on its instruction, one among them goes to the instruction that followed. -/
def removeBetween (a b : Nat) : Edit σ Unit := do
  let low := min a b
  let high := max a b
  checkIndex high
  modifyCursor fun c =>
    { c with
      code := c.code.removeBetween low high
      position :=
        if high < c.position then c.position - (high - low + 1 : Nat)
        else if low ≤ c.position then low
        else c.position }

/-- Remove the instructions between two offsets from the position, both included and in either
order. -/
def removeBetweenOffsets (a b : Int) : Edit σ Unit := do
  let i ← offsetIndex a
  let j ← offsetIndex b
  removeBetween i j

end Weaving.Edit
