import Weaving.Instruction

/-!
# Code

The instructions of one method body in order. A label ties a branch to the instruction that it
tags; code is well labelled when no label tags twice and every branch target tags an instruction.
-/

namespace Weaving

/-- The instructions of a method body. -/
abbrev Code := List Instruction

namespace Code

/-- All tags in program order. -/
def tags (code : Code) : List Label := code.flatMap (·.labels)

/-- All branch targets in program order. -/
def targets (code : Code) : List Label := code.flatMap (·.targets)

/-- All labels that editing keeps apart. -/
def mentioned (code : Code) : List Label := code.flatMap (·.mentioned)

/-- The supply of the labels above all tags and branch targets. -/
def freshLabels (code : Code) : LabelSupply := LabelSupply.all.pastAll code.mentioned

/-- The branch targets that tag no instruction, each once and in increasing order. -/
def dangling (code : Code) : List Label :=
  (code.targets.filter (· ∉ code.tags)).eraseDups.mergeSort Label.le

/-- The first label of the list that was seen before. -/
def firstRepeated? (seen : List Label) : List Label → Option Label
  | [] => none
  | l :: ls => if l ∈ seen then some l else firstRepeated? (l :: seen) ls

/-- What is wrong with the labels of some code. -/
inductive LabelFault where
  /-- The label tags more than one instruction, or one instruction twice. -/
  | duplicate (l : Label)
  /-- The labels are branch targets and tag no instruction. -/
  | dangling (ls : List Label)
deriving DecidableEq, Repr

/-- The fault of the code's labels. A repeated tag is reported before dangling targets. -/
def labelFault? (code : Code) : Option LabelFault :=
  match firstRepeated? [] code.tags with
  | some l => some (.duplicate l)
  | none =>
    match code.dangling with
    | [] => none
    | ls => some (.dangling ls)

/-- The instructions from index `low` to index `high`, both included. -/
def slice (code : Code) (low high : Nat) : Code := (code.take (high + 1)).drop low

/-- The code with instructions put in front of the one at the index. -/
def insertAt (code : Code) (index : Nat) (more : Code) : Code :=
  code.take index ++ more ++ code.drop index

/-- The code without the instructions from index `low` to index `high`. -/
def removeBetween (code : Code) (low high : Nat) : Code :=
  code.take low ++ code.drop (high + 1)

end Code

end Weaving
