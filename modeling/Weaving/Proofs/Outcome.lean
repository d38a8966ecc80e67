import Mathlib.Algebra.Group.Nat.Defs
import Weaving.Edit.Label
import Weaving.Proofs.LabelSupply
import Weaving.Proofs.WellLabelled

/-!
# What edits come to

An edit run on a workspace succeeds or fails, and leaves a workspace in either case
(`Edit.after`). For each operation that changes code or labels there is an equation here that gives
its outcome on any workspace, the error included; proofs about edits cite these equations and do not
unfold the operations. What the operations do to the cursor is given by functions on cursors:
`Cursor.put` and `Cursor.splice` insert instructions, `Cursor.cut` removes them, `Cursor.tagNext`
makes a label and attaches it.
-/

namespace Weaving

/-- The instruction with one more tag. -/
def Instruction.withTag (l : Label) (i : Instruction) : Instruction :=
  { i with labels := i.labels ++ [l] }

/-- The instruction without its tags. -/
def Instruction.withoutTags (i : Instruction) : Instruction :=
  { i with labels := [] }

/-- The instruction with another opcode and operand. -/
def Instruction.withOperation (op : Opcode) (operand : Option Operand) (i : Instruction) :
    Instruction :=
  { i with opcode := op, operand := operand }

namespace Cursor

/-- Instructions can be inserted at the position. -/
def CanInsert (c : Cursor) : Prop := 0 ≤ c.position ∧ c.position ≤ c.length

instance (c : Cursor) : Decidable c.CanInsert :=
  inferInstanceAs (Decidable (0 ≤ c.position ∧ c.position ≤ c.length))

/-- The cursor with instructions inserted in front of the position, which is then on the first of
them. -/
def put (c : Cursor) (more : Code) : Cursor :=
  { c with code := c.code.insertAt c.position.toNat more }

/-- The cursor with instructions inserted in front of the position, which stays on its
instruction. -/
def splice (c : Cursor) (more : Code) : Cursor :=
  { c.put more with position := c.position + more.length }

/-- The cursor with the instructions from index `low` to index `high` removed. -/
def cut (c : Cursor) (low high : Nat) : Cursor :=
  { c with
    code := c.code.removeBetween low high
    position :=
      if high < c.position then c.position - (high - low + 1 : Nat)
      else if low ≤ c.position then low
      else c.position }

/-- The label that is made next. -/
def nextLabel (c : Cursor) : Label :=
  (c.fresh.pastAll c.code.mentioned).next

/-- The next label can be made without coming behind the last one. -/
abbrev HasRoom (c : Cursor) : Prop := c.code.RoomFor c.nextLabel

/-- The cursor after the next label was made. -/
def dropNext (c : Cursor) : Cursor :=
  { c with fresh := ⟨c.nextLabel.next⟩ }

/-- The cursor after the next label was made and attached to the instruction at the index. -/
def tagNext (c : Cursor) (index : Nat) : Cursor :=
  { c.dropNext with code := c.code.modify index (·.withTag c.nextLabel) }

/-- An offset that leads to an instruction gives its index. -/
theorem indexAt?_of_lt {c : Cursor} {offset : Int} {index : Nat} (h : c.position + offset = index)
    (hlt : index < c.length) : c.indexAt? offset = some index := by
  unfold indexAt?
  rw [h, if_pos (And.intro (Int.natCast_nonneg index) (Int.ofNat_lt.2 hlt)), Int.toNat_natCast]

/-- An offset that leads out of the code gives no index. -/
theorem indexAt?_of_outside {c : Cursor} {offset : Int}
    (h : ¬ (0 ≤ c.position + offset ∧ c.position + offset < c.length)) :
    c.indexAt? offset = none := if_neg h

/-- In code that words can index, the sum of the position and an offset is an index exactly if it is
one after it was kept within the range of a word. -/
theorem indexAt?_eq_saturate (c : Cursor) (offset : Int)
    (hlength : (c.length : Int) ≤ Position.greatest) :
    c.indexAt? offset =
      if 0 ≤ Position.saturate (c.position + offset) ∧
          (Position.saturate (c.position + offset)).toNat < c.length then
        some (Position.saturate (c.position + offset)).toNat
      else none := by
  unfold Position.greatest at hlength
  by_cases hinside : 0 ≤ c.position + offset ∧ c.position + offset < c.length
  · -- a sum that is an index is in the range of a word
    have hsum : Position.saturate (c.position + offset) = c.position + offset := by
      unfold Position.saturate Position.greatest Position.least
      omega
    rw [hsum, if_pos (by omega)]
    exact if_pos hinside
  · rw [indexAt?_of_outside hinside, if_neg]
    unfold Position.saturate Position.greatest Position.least
    omega

/-- On an index, or past the code, the instruction at the position is that of the code. -/
theorem instruction?_of_position {c : Cursor} {p : Nat} (hp : c.position = p) :
    c.instruction? = c.code[p]? := by
  rcases Nat.lt_or_ge p c.length with hlt | hge
  · rw [instruction?, peek, indexAt?_of_lt ((Int.add_zero _).trans hp) hlt]
    rfl
  · rw [instruction?, peek, indexAt?_of_outside (by omega), List.getElem?_eq_none hge]
    rfl

/-- On an index, the instruction at the position is the one there. -/
theorem instruction?_of_getElem? {c : Cursor} {index : Nat} {i : Instruction}
    (hposition : c.position = index) (hi : c.code[index]? = some i) :
    c.instruction? = some i :=
  (instruction?_of_position hposition).trans hi

/-- A move that stays between the sentinels goes exactly as far as it says. -/
theorem advance_of_range {c : Cursor} {offset : Int} (position : Int)
    (h : c.position + offset = position) (hlow : -1 ≤ position) (hhigh : position ≤ c.length) :
    c.advance offset = { c with position := position } := by
  have hclamp : max (-1) (min (c.position + offset) c.length) = position := by omega
  rw [advance, hclamp]

@[simp] theorem length_tagNext (c : Cursor) (index : Nat) :
    (c.tagNext index).length = c.length := by
  simp [tagNext, length]

@[simp] theorem indexAt?_tagNext (c : Cursor) (index : Nat) (offset : Int) :
    (c.tagNext index).indexAt? offset = c.indexAt? offset := by
  unfold indexAt?
  rw [length_tagNext]
  rfl

/-- A tag does not change where instructions can be inserted. -/
theorem canInsert_tagNext {c : Cursor} {index : Nat} (h : c.CanInsert) :
    (c.tagNext index).CanInsert := by
  unfold CanInsert
  rw [length_tagNext]
  exact h

/-- The next label is the least of the supply that is above all tags and branch targets, unless the
last label is one of them. -/
theorem isLeast_nextLabel {c : Cursor} (h : Label.last ∉ c.code.mentioned) :
    IsLeast {n | c.fresh.next.id ≤ n ∧ ∀ l ∈ c.code.mentioned, l.id < n} c.nextLabel.id :=
  LabelSupply.isLeast_pastAll h

/-- The next label is neither a tag nor a branch target. -/
theorem HasRoom.nextLabel_not_mem {c : Cursor} (h : c.HasRoom) :
    c.nextLabel ∉ c.code.mentioned :=
  fun hmem => UInt64.lt_irrefl _ ((isLeast_nextLabel h.skipped).1.2 _ hmem)

end Cursor

namespace Edit

variable {σ α β : Type}

open Cursor (canInsert_tagNext)

/-- The workspace that an edit leaves, whether it succeeds or fails. -/
def after (e : Edit σ α) (w : Workspace σ) : Workspace σ :=
  match e w with
  | .ok _ w' => w'
  | .error _ w' => w'

/-- What an edit that succeeds leaves is what its outcome says. -/
theorem after_of_ok {e : Edit σ α} {w w' : Workspace σ} {a : α} (h : e w = .ok a w') :
    e.after w = w' := by
  rw [after, h]

/-- What an edit that fails leaves is what its outcome says. -/
theorem after_of_error {e : Edit σ α} {w w' : Workspace σ} {err : Error}
    (h : e w = .error err w') : e.after w = w' := by
  rw [after, h]

/-- After a success the next edit runs. -/
theorem bind_of_ok {e : Edit σ α} {f : α → Edit σ β} {w w' : Workspace σ} {a : α}
    (h : e w = .ok a w') : (e >>= f) w = f a w' := by
  change EStateM.bind e f w = _
  rw [EStateM.bind, h]

/-- After a failure nothing more runs. -/
theorem bind_of_error {e : Edit σ α} {f : α → Edit σ β} {w w' : Workspace σ} {err : Error}
    (h : e w = .error err w') : (e >>= f) w = .error err w' := by
  change EStateM.bind e f w = _
  rw [EStateM.bind, h]

/-- A sequence succeeds when both of its edits do. -/
theorem bind_eq_ok {e : Edit σ α} {f : α → Edit σ β} {w w' : Workspace σ} {b : β} :
    (e >>= f) w = .ok b w' ↔ ∃ a w₁, e w = .ok a w₁ ∧ f a w₁ = .ok b w' := by
  cases he : e w with
  | ok a w₁ => simp [bind_of_ok he]
  | error err w₁ => simp [bind_of_error he]

/-- A sequence fails when its first edit does, or when that succeeds and the second fails. -/
theorem bind_eq_error {e : Edit σ α} {f : α → Edit σ β} {w w' : Workspace σ} {err : Error} :
    (e >>= f) w = .error err w' ↔
      e w = .error err w' ∨ ∃ a w₁, e w = .ok a w₁ ∧ f a w₁ = .error err w' := by
  cases he : e w with
  | ok a w₁ => simp [bind_of_ok he]
  | error err w₁ => simp [bind_of_error he]

/-- A sequence fails with an error when one of its edits does and those before it succeed. -/
theorem bind_fails_iff {e : Edit σ α} {f : α → Edit σ β} {w : Workspace σ} {err : Error} :
    (∃ w', (e >>= f) w = .error err w') ↔
      (∃ w', e w = .error err w') ∨ ∃ a w₁, e w = .ok a w₁ ∧ ∃ w', f a w₁ = .error err w' := by
  cases he : e w with
  | ok a w₁ => simp [bind_of_ok he]
  | error err w₁ => simp [bind_of_error he]

/-- What handles failures is not run after a success. -/
theorem tryCatch_of_ok {e : Edit σ α} {f : Error → Edit σ α} {w w' : Workspace σ} {a : α}
    (h : e w = .ok a w') : tryCatch e f w = .ok a w' := by
  change EStateM.tryCatch e f w = _
  rw [EStateM.tryCatch, h]

/-- What was changed before the failure is still there when the failure is handled. -/
theorem tryCatch_of_error {e : Edit σ α} {f : Error → Edit σ α} {w w' : Workspace σ}
    {err : Error} (h : e w = .error err w') : tryCatch e f w = f err w' := by
  change EStateM.tryCatch e f w = _
  rw [EStateM.tryCatch, h]
  rfl

/-! ## Checked positions -/

/-- An index of the code passes. -/
theorem checkIndex_of_lt {index : Nat} {w : Workspace σ} (h : index < w.cursor.length) :
    checkIndex index w = .ok () w := by
  rw [checkIndex, bind_of_ok (cursor_apply w), if_pos h]
  rfl

/-- An index past the code is reported with the length of the code. -/
theorem checkIndex_of_le {index : Nat} {w : Workspace σ} (h : w.cursor.length ≤ index) :
    checkIndex index w =
      .error (.positionOutOfRange (Position.ofIndex index) w.cursor.length) w := by
  rw [checkIndex, bind_of_ok (cursor_apply w), if_neg (Nat.not_lt.2 h)]
  rfl

/-- An index that lies an offset away from the position is returned. -/
theorem offsetIndex_of_some {offset : Int} {index : Nat} {w : Workspace σ}
    (h : w.cursor.indexAt? offset = some index) : offsetIndex offset w = .ok index w := by
  rw [offsetIndex, bind_of_ok (cursor_apply w), h]
  rfl

/-- Where no index is, the sum of position and offset is reported, kept within the range of a
word. -/
theorem offsetIndex_of_none {offset : Int} {w : Workspace σ}
    (h : w.cursor.indexAt? offset = none) :
    offsetIndex offset w =
      .error (.positionOutOfRange (Position.saturate (w.cursor.position + offset))
        w.cursor.length) w := by
  rw [offsetIndex, bind_of_ok (cursor_apply w), h]
  rfl

/-- The index at a position that is read off a word: the sign is looked at first, and then the index
is compared without it. -/
def checkPosition (position : Int) : Edit σ Nat := do
  let c ← cursor
  if 0 ≤ position ∧ position.toNat < c.length then
    return position.toNat
  else
    throw (.positionOutOfRange position c.length)

/-- A position on an instruction is read as its index. -/
theorem checkPosition_of_lt {position : Int} {w : Workspace σ}
    (h : 0 ≤ position ∧ position.toNat < w.cursor.length) :
    checkPosition position w = .ok position.toNat w := by
  rw [checkPosition, bind_of_ok (cursor_apply w), if_pos h]
  rfl

/-- Any other position is reported as it is. -/
theorem checkPosition_of_not {position : Int} {w : Workspace σ}
    (h : ¬ (0 ≤ position ∧ position.toNat < w.cursor.length)) :
    checkPosition position w = .error (.positionOutOfRange position w.cursor.length) w := by
  rw [checkPosition, bind_of_ok (cursor_apply w), if_neg h]
  rfl

/-- In code that words can index, checking an index is checking it as a position: one that is too
great for a position is read as one below zero. -/
theorem checkIndex_eq_checkPosition {index : Nat} {w : Workspace σ}
    (hword : index < 0x10000000000000000) (hlength : (w.cursor.length : Int) ≤ Position.greatest) :
    checkIndex index w = (do let _ ← checkPosition (Position.ofIndex index)) w := by
  unfold Position.greatest at hlength
  by_cases hlt : index < w.cursor.length
  · have hsmall : Position.ofIndex index = index := Position.ofIndex_eq (by omega)
    rw [checkIndex_of_lt hlt, hsmall, bind_of_ok (checkPosition_of_lt (by omega))]
    rfl
  · have hnot : ¬ (0 ≤ Position.ofIndex index ∧
        (Position.ofIndex index).toNat < w.cursor.length) := by
      rcases Nat.lt_or_ge index 0x8000000000000000 with hsmall | hgreat
      · rw [Position.ofIndex_eq hsmall]
        omega
      · rw [Position.ofIndex_of_le hgreat hword]
        omega
    rw [checkIndex_of_le (Nat.le_of_not_lt hlt), bind_of_error (checkPosition_of_not hnot)]

/-- In code that words can index, looking for the index that lies an offset away is checking the
sum of the position and the offset, kept within the range of a word. -/
theorem offsetIndex_eq_checkPosition {offset : Int} {w : Workspace σ}
    (hlength : (w.cursor.length : Int) ≤ Position.greatest) :
    offsetIndex offset w = checkPosition (Position.saturate (w.cursor.position + offset)) w := by
  have hindex := w.cursor.indexAt?_eq_saturate offset hlength
  by_cases hinside : 0 ≤ Position.saturate (w.cursor.position + offset) ∧
      (Position.saturate (w.cursor.position + offset)).toNat < w.cursor.length
  · rw [if_pos hinside] at hindex
    rw [offsetIndex_of_some hindex, checkPosition_of_lt hinside]
  · rw [if_neg hinside] at hindex
    rw [offsetIndex_of_none hindex, checkPosition_of_not hinside]

/-- Where instructions can be inserted, they go in front of the position. -/
theorem insertionIndex_of_canInsert {w : Workspace σ} (h : w.cursor.CanInsert) :
    insertionIndex w = .ok w.cursor.position.toNat w := by
  rw [insertionIndex, bind_of_ok (cursor_apply w), if_pos (And.intro h.1 h.2)]
  rfl

/-- Elsewhere the position is reported. -/
theorem insertionIndex_of_not_canInsert {w : Workspace σ} (h : ¬ w.cursor.CanInsert) :
    insertionIndex w = .error (.positionOutOfRange w.cursor.position w.cursor.length) w := by
  unfold Cursor.CanInsert at h
  rw [insertionIndex, bind_of_ok (cursor_apply w), if_neg h]
  rfl

/-! ## Insertion -/

/-- An insertion that is possible puts its instructions in front of the position. -/
theorem insert_of_canInsert {w : Workspace σ} (more : Code) (h : w.cursor.CanInsert) :
    insert more w = .ok () { w with cursor := w.cursor.put more } := by
  rw [insert, bind_of_ok (insertionIndex_of_canInsert h)]
  rfl

/-- An emission that is possible splices its instructions in front of the position. -/
theorem emit_of_canInsert {w : Workspace σ} (more : Code) (h : w.cursor.CanInsert) :
    emit more w = .ok () { w with cursor := w.cursor.splice more } := by
  have hpos : ((w.cursor.position.toNat + more.length : Nat) : Int) =
      w.cursor.position + more.length := by
    have := h.1
    omega
  rw [emit, bind_of_ok (insertionIndex_of_canInsert h), modifyCursor_apply, hpos]
  rfl

/-- An emission that is not possible reports the position and changes nothing. -/
theorem emit_of_not_canInsert {w : Workspace σ} (more : Code) (h : ¬ w.cursor.CanInsert) :
    emit more w = .error (.positionOutOfRange w.cursor.position w.cursor.length) w := by
  rw [emit, bind_of_error (insertionIndex_of_not_canInsert h)]

/-! ## Replacement -/

/-- Opcode and operand are set at the position, and the tags stay. -/
theorem setOperation_of_some {w : Workspace σ} {index : Nat} (op : Opcode)
    (operand : Option Operand) (h : w.cursor.indexAt? 0 = some index) :
    setOperation op operand w = .ok ()
      { w with
        cursor :=
          { w.cursor with
            code := w.cursor.code.modify index (·.withOperation op operand) } } := by
  rw [setOperation, currentIndex, bind_of_ok (offsetIndex_of_some h)]
  rfl

/-! ## Removal -/

/-- The instruction at the position is removed, and the position is then on the one that
followed. -/
theorem remove_of_lt {p : Nat} {w : Workspace σ} (hp : w.cursor.position = p)
    (h : p < w.cursor.length) :
    remove w = .ok ()
      { w with cursor := { w.cursor with code := w.cursor.code.removeBetween p p } } := by
  have hindex : w.cursor.indexAt? 0 = some p :=
    Cursor.indexAt?_of_lt ((Int.add_zero _).trans hp) h
  rw [remove, currentIndex, bind_of_ok (offsetIndex_of_some hindex), modifyCode_apply,
    List.eraseIdx_eq_take_drop_succ]
  rfl

/-- A count that the code has room for, and that a word with a sign can hold, removes as many
instructions. -/
theorem removeNext_of_le {p n : Nat} {w : Workspace σ} (hp : w.cursor.position = p) (hn : 0 < n)
    (h : p + n ≤ w.cursor.length) (hword : n ≤ 2 ^ 63) :
    removeNext (.ofNat n) w = .ok ()
      { w with
        cursor := { w.cursor with code := w.cursor.code.removeBetween p (p + n - 1) } } := by
  have hcount : (UInt64.ofNat n).toNat = n :=
    UInt64.toNat_ofNat_of_lt' (Nat.lt_of_le_of_lt hword (by decide))
  have hne : UInt64.ofNat n ≠ 0 := by
    intro heq
    rw [heq, UInt64.toNat_zero] at hcount
    omega
  have hfirst : w.cursor.indexAt? 0 = some p :=
    Cursor.indexAt?_of_lt ((Int.add_zero _).trans hp) (by omega)
  have hlast : w.cursor.indexAt? (Position.ofIndex (n - 1)) = some (p + n - 1) := by
    refine Cursor.indexAt?_of_lt ?_ (by omega)
    rw [Position.ofIndex_eq (by omega), hp]
    omega
  rw [removeNext, if_neg hne, hcount]
  refine (bind_of_ok (offsetIndex_of_some hfirst)).trans ?_
  refine (bind_of_ok (offsetIndex_of_some hlast)).trans ?_
  rw [if_neg (by omega)]
  rfl

/-- A range whose two ends are in the code is cut out, whichever end is given first. -/
theorem removeBetween_of_lt {a b : Nat} {w : Workspace σ} (h : max a b < w.cursor.length) :
    removeBetween a b w = .ok () { w with cursor := w.cursor.cut (min a b) (max a b) } := by
  rw [removeBetween, bind_of_ok (checkIndex_of_lt h)]
  rfl

/-! ## New labels -/

/-- A new label is the next one of the supply, past every label of the code. -/
theorem newLabel_apply (w : Workspace σ) :
    newLabel w = .ok w.cursor.nextLabel { w with cursor := w.cursor.dropNext } := rfl

/-- At an index of the code the new label is attached there. -/
theorem newLabelAt_of_lt {index : Nat} {w : Workspace σ} (h : index < w.cursor.length) :
    newLabelAt index w =
      .ok w.cursor.nextLabel { w with cursor := w.cursor.tagNext index } := by
  rw [newLabelAt, bind_of_ok (checkIndex_of_lt h), bind_of_ok (newLabel_apply w)]
  rfl

/-- At an index past the code no label is made. -/
theorem newLabelAt_of_le {index : Nat} {w : Workspace σ} (h : w.cursor.length ≤ index) :
    newLabelAt index w =
      .error (.positionOutOfRange (Position.ofIndex index) w.cursor.length) w := by
  rw [newLabelAt, bind_of_error (checkIndex_of_le h)]

/-! ## Branches -/

/-- Where no instruction can be inserted, no label is made for a branch either. -/
theorem putBranch_of_not_canInsert {put : Code → Edit σ Unit} {w : Workspace σ} (op : Opcode)
    (destination : Nat) (h : ¬ w.cursor.CanInsert) :
    putBranch put op destination w =
      .error (.positionOutOfRange w.cursor.position w.cursor.length) w := by
  rw [putBranch, bind_of_error (insertionIndex_of_not_canInsert h)]

/-- A branch to an index past the code is refused before its label is made. -/
theorem putBranch_of_le {put : Code → Edit σ Unit} {w : Workspace σ} (op : Opcode)
    {destination : Nat} (h : w.cursor.CanInsert) (hd : w.cursor.length ≤ destination) :
    putBranch put op destination w =
      .error (.positionOutOfRange (Position.ofIndex destination) w.cursor.length) w := by
  rw [putBranch, bind_of_ok (insertionIndex_of_canInsert h), bind_of_error (newLabelAt_of_le hd)]

/-- With its position and its destination in range a branch is put after the destination was
tagged. -/
theorem putBranch_of_lt {put : Code → Edit σ Unit} {w w' : Workspace σ} (op : Opcode)
    {destination : Nat} (h : w.cursor.CanInsert) (hd : destination < w.cursor.length)
    (hput : put [.branch op w.cursor.nextLabel]
      { w with cursor := w.cursor.tagNext destination } = .ok () w') :
    putBranch put op destination w = .ok w.cursor.nextLabel w' := by
  rw [putBranch, bind_of_ok (insertionIndex_of_canInsert h), bind_of_ok (newLabelAt_of_lt hd),
    bind_of_ok hput]
  rfl

/-- Where no instruction is, none is turned into a branch. -/
theorem turnIntoBranch_of_none {w : Workspace σ} (op : Opcode) (destination : Nat)
    (h : w.cursor.indexAt? 0 = none) :
    turnIntoBranch op destination w =
      .error (.positionOutOfRange (Position.saturate (w.cursor.position + 0))
        w.cursor.length) w := by
  rw [turnIntoBranch, currentIndex, bind_of_error (offsetIndex_of_none h)]

/-- No instruction is turned into a branch to an index past the code. -/
theorem turnIntoBranch_of_le {w : Workspace σ} (op : Opcode) {index destination : Nat}
    (h : w.cursor.indexAt? 0 = some index) (hd : w.cursor.length ≤ destination) :
    turnIntoBranch op destination w =
      .error (.positionOutOfRange (Position.ofIndex destination) w.cursor.length) w := by
  rw [turnIntoBranch, currentIndex, bind_of_ok (offsetIndex_of_some h),
    bind_of_error (newLabelAt_of_le hd)]

/-- The destination is tagged first, so an instruction turned into a branch to itself keeps the
new tag. -/
theorem turnIntoBranch_of_lt {w : Workspace σ} (op : Opcode) {index destination : Nat}
    (h : w.cursor.indexAt? 0 = some index) (hd : destination < w.cursor.length) :
    turnIntoBranch op destination w = .ok w.cursor.nextLabel
      { w with
        cursor :=
          { w.cursor.tagNext destination with
            code := (w.cursor.tagNext destination).code.modify index
              (·.withOperation op (some (.label w.cursor.nextLabel))) } } := by
  rw [turnIntoBranch, currentIndex, bind_of_ok (offsetIndex_of_some h),
    bind_of_ok (newLabelAt_of_lt hd)]
  refine (bind_of_ok (setOperation_of_some _ _ ?_)).trans rfl
  rw [Cursor.indexAt?_tagNext, h]

/-! ## Moving labels -/

/-- Tags that are moved leave their instruction and are joined to those of the other. -/
theorem moveLabels_of_ne {source target : Nat} {w : Workspace σ} {i : Instruction}
    (hi : w.cursor.code[source]? = some i) (ht : target < w.cursor.length)
    (hne : source ≠ target) :
    moveLabels source target w = .ok ()
      { w with
        cursor :=
          { w.cursor with
            code := (w.cursor.code.modify source (·.withoutTags)).modify target
              (·.addTags i.labels) } } := by
  have hs : source < w.cursor.length := (List.getElem?_eq_some_iff.1 hi).1
  rw [moveLabels, bind_of_ok (checkIndex_of_lt hs), bind_of_ok (checkIndex_of_lt ht), if_neg hne,
    bind_of_ok (cursor_apply w), hi]
  refine (bind_of_ok (modifyCode_apply _ w)).trans ?_
  refine (bind_of_ok (checkIndex_of_lt ?_)).trans rfl
  simpa [Cursor.length] using ht

end Edit

end Weaving
