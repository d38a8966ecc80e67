import Weaving.Edit.Change
import Weaving.Instruction.Assemble

/-!
# Labels and branches

Operations that make labels, attach them and move them, and the branches built on them. A new
label is above every label that tags an instruction or is a branch target, unless the last label is
one of them.
-/

namespace Weaving.Edit

variable {σ : Type}

/-- Make a label above all those in the code and all those made before. -/
def newLabel : Edit σ Label := do
  let c ← cursor
  let (label, rest) := (c.fresh.pastAll c.code.mentioned).take
  setCursor { c with fresh := rest }
  return label

/-- Make a label and attach it to the instruction at the index. -/
def newLabelAt (index : Nat) : Edit σ Label := do
  checkIndex index
  let label ← newLabel
  modifyCode (·.modify index fun i => { i with labels := i.labels ++ [label] })
  return label

/-- Make a label and attach it to the instruction that lies `offset` away. -/
def newLabelAtOffset (offset : Int) : Edit σ Label := do
  let index ← offsetIndex offset
  newLabelAt index

/-- Attach labels to the instruction at the index; those that it has are not repeated. -/
def tagAt (index : Nat) (labels : List Label) : Edit σ Unit := do
  checkIndex index
  modifyCode (·.modify index (·.addTags labels))

/-- Attach labels to the instruction at the position. -/
def tag (labels : List Label) : Edit σ Unit := do
  let index ← currentIndex
  tagAt index labels

/-- Move the labels of one instruction to another, so that branches to the one go to the other. -/
def moveLabels (source target : Nat) : Edit σ Unit := do
  checkIndex source
  checkIndex target
  if source = target then
    pure ()
  else
    let labels := (← cursor).code[source]?.elim [] (·.labels)
    modifyCode (·.modify source fun i => { i with labels := [] })
    tagAt target labels

/-- Move the region marks of one instruction behind those of another. -/
def moveMarks (source target : Nat) : Edit σ Unit := do
  checkIndex source
  checkIndex target
  if source = target then
    pure ()
  else
    let marks := (← cursor).code[source]?.elim [] (·.marks)
    modifyCode (·.modify source fun i => { i with marks := [] })
    modifyCode (·.modify target fun i => { i with marks := i.marks ++ marks })

/-- Put a branch to the instruction at the index into the code. The index is counted before the
insertion, and its instruction is tagged before it is moved. -/
def putBranch (put : Code → Edit σ Unit) (op : Opcode) (destination : Nat) : Edit σ Label := do
  let _ ← insertionIndex
  let label ← newLabelAt destination
  put [.branch op label]
  return label

/-- Insert a branch to the instruction at the index; the position is then on the branch. -/
def insertBranch (op : Opcode) (destination : Nat) : Edit σ Label :=
  putBranch insert op destination

/-- Insert a branch to the instruction at the index and stay on the instruction at the position. -/
def emitBranch (op : Opcode) (destination : Nat) : Edit σ Label :=
  putBranch emit op destination

/-- Turn the instruction at the position into a branch to the instruction at the index. -/
def turnIntoBranch (op : Opcode) (destination : Nat) : Edit σ Label := do
  let _ ← currentIndex
  let label ← newLabelAt destination
  setOperation op (some (.label label))
  return label

end Weaving.Edit
