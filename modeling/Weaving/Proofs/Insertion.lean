import Weaving.Proofs.Jumps
import Weaving.Proofs.Push

/-!
# Insertions and their undoing

Instructions can be inserted so that the cursor is on the first of them (`Edit.insert`) or stays on
its own instruction (`Edit.emit`). The two differ in the final position only, and `emit` comes to
the same as inserting one instruction after the other and moving past each
(`forM_insert_eq_emit`), so insertions one behind the other add up (`emit_append`). Removing as many
instructions as were inserted gives everything back, in the first case at once and in the second
after moving back over them (`insertion_undone`).
-/

namespace Weaving

namespace Cursor

variable {c : Cursor}

/-- After an emission more can be inserted. -/
theorem canInsert_splice (h : c.CanInsert) (more : Code) : (c.splice more).CanInsert :=
  Spliced.canInsert ⟨rfl, .inr h⟩ h

/-- Behind an insertion the cursor is still on its instruction. -/
theorem instruction?_splice (h : c.CanInsert) (more : Code) :
    (c.splice more).instruction? = c.instruction? := by
  obtain ⟨p, hp⟩ := Int.eq_ofNat_of_zero_le h.1
  have hle : p ≤ c.code.length := by
    have := h.toNat_le
    omega
  have hget := Code.getElem?_insertAt_shift more p hle
  rw [Code.shift, if_neg (Nat.lt_irrefl p)] at hget
  have hcode : (c.splice more).code = c.code.insertAt p more := by
    change c.code.insertAt c.position.toNat more = _
    rw [hp, Int.toNat_natCast]
  have hposition : (c.splice more).position = (p + more.length : Nat) := by
    change c.position + more.length = _
    rw [hp]
    rfl
  rw [instruction?_of_position hposition, instruction?_of_position hp, hcode, hget]

/-- Moving back over what was inserted leads to the first of it. -/
theorem advance_splice (h : c.CanInsert) (more : Code) :
    (c.splice more).advance (-more.length) = c.put more := by
  have hback : (c.splice more).position + -more.length = c.position := by
    change c.position + more.length + -more.length = _
    omega
  have hhigh : c.position ≤ (c.splice more).length := by
    rw [length_splice]
    have := h.2
    omega
  rw [advance_of_range c.position hback (by have := h.1; omega) hhigh]
  rfl

end Cursor

namespace Edit

variable {σ : Type} {w : Workspace σ}

/-! ## One insertion and many -/

/-- Insertions one behind the other are one. -/
theorem emit_append (more rest : Code) :
    (emit (more ++ rest) : Edit σ Unit) = (do emit more; emit rest) := by
  funext w
  by_cases h : w.cursor.CanInsert
  · rw [emit_of_canInsert _ h, bind_of_ok (emit_of_canInsert _ h),
      emit_of_canInsert rest (Cursor.canInsert_splice h more), Cursor.splice_splice more rest h]
  · rw [emit_of_not_canInsert _ h, bind_of_error (emit_of_not_canInsert _ h)]

/-- Moving past an instruction that was inserted leaves the cursor on its own. -/
theorem thenAdvance_insert (i : Instruction) (h : w.cursor.CanInsert) :
    thenAdvance (insert [i]) w = emit [i] w := by
  have hrange : (w.cursor.put [i]).advance 1 = w.cursor.splice [i] := by
    have hlength : (w.cursor.put [i]).length = w.cursor.length + 1 := w.cursor.length_splice [i]
    obtain ⟨hlow, hhigh⟩ := h
    exact Cursor.advance_of_range (w.cursor.position + 1) rfl (by omega) (by omega)
  rw [emit_of_canInsert _ h, thenAdvance, bind_of_ok (insert_of_canInsert _ h), advance,
    modifyCursor_apply, hrange]

/-- Instructions inserted one after the other, each of them moved past, are inserted at once. -/
theorem forM_insert_eq_emit (more : Code) (h : w.cursor.CanInsert) :
    (more.forM fun i => thenAdvance (insert [i])) w = emit more w := by
  induction more generalizing w with
  | nil =>
    rw [emit_of_canInsert [] h, Cursor.splice_nil]
    rfl
  | cons i rest ih =>
    have hfirst := (thenAdvance_insert i h).trans (emit_of_canInsert [i] h)
    calc (thenAdvance (insert [i]) >>= fun _ => rest.forM fun i => thenAdvance (insert [i])) w
        = (rest.forM fun i => thenAdvance (insert [i])) { w with cursor := w.cursor.splice [i] } :=
          bind_of_ok hfirst
      _ = emit rest { w with cursor := w.cursor.splice [i] } := ih (Cursor.canInsert_splice h [i])
      _ = (do emit [i]; emit rest) w :=
          (bind_of_ok (f := fun _ => emit rest) (emit_of_canInsert [i] h)).symm
      _ = emit (i :: rest) w := (congrFun (emit_append [i] rest) w).symm

/-! ## Undoing -/

/-- From the first of the inserted instructions on, they can be removed again. -/
theorem removeNext_put {more : Code} (h : w.cursor.CanInsert) (hword : more.length ≤ 2 ^ 63) :
    removeNext (.ofNat more.length) { w with cursor := w.cursor.put more } = .ok () w := by
  rcases Nat.eq_zero_or_pos more.length with hzero | hpos
  · -- nothing was inserted and nothing is removed, also on the sentinel
    rw [List.length_eq_zero_iff.1 hzero]
    have hput : w.cursor.put [] = w.cursor := by
      simp [Cursor.put, Code.insertAt]
    rw [hput]
    rfl
  · have hlength : (w.cursor.put more).length = w.cursor.length + more.length :=
      w.cursor.length_splice more
    have hfits : w.cursor.position.toNat + more.length ≤ (w.cursor.put more).length := by
      rw [hlength]
      exact Nat.add_le_add_right h.toNat_le _
    have hrun := removeNext_of_le (w := { w with cursor := w.cursor.put more })
      (Int.toNat_of_nonneg h.1).symm hpos hfits hword
    have hcode := Code.removeBetween_insertAt h.toNat_le hpos
    rw [hrun]
    simp only [Cursor.put, hcode]

/-- An insertion in front of the position is undone by removing as many instructions, after moving
back over them where the cursor stayed on its own. Both ways of inserting give the same code. The
second leaves the cursor on its instruction, or past the code, comes to the same as inserting the
instructions one at a time, and can be done in parts. The instructions must be no more than a word
with a sign can count. -/
theorem insertion_undone (w : Workspace σ) (more rest : Code) {p : Nat}
    (hp : w.cursor.position = p) (hle : p ≤ w.cursor.length) (hword : more.length ≤ 2 ^ 63) :
    let n := more.length
    (do insert more; removeNext (.ofNat n)) w = .ok () w ∧
      (do emit more; advance (-n); removeNext (.ofNat n)) w = .ok () w ∧
      (∃ w₁ w₂, insert more w = .ok () w₁ ∧ emit more w = .ok () w₂ ∧
        w₁.cursor.code = w.cursor.code.take p ++ more ++ w.cursor.code.drop p ∧
        w₁.cursor.position = p ∧
        w₂ = { w₁ with cursor := { w₁.cursor with position := p + n } } ∧
        w₂.cursor.instruction? = w.cursor.instruction? ∧
        (p = w.cursor.length → w₂.cursor.position = w₂.cursor.length)) ∧
      (more.forM fun i => thenAdvance (insert [i])) w = emit more w ∧
      emit (more ++ rest) w = (do emit more; emit rest) w := by
  intro n
  have hins : w.cursor.CanInsert := by
    unfold Cursor.CanInsert
    omega
  have htoNat : w.cursor.position.toNat = p := by omega
  have hinsert := insert_of_canInsert more hins
  have hemit := emit_of_canInsert more hins
  refine ⟨?_, ?_, ⟨_, _, hinsert, hemit, ?_, hp, ?_, ?_, ?_⟩, forM_insert_eq_emit more hins,
    congrFun (emit_append more rest) w⟩
  · rw [bind_of_ok hinsert, removeNext_put hins hword]
  · rw [bind_of_ok hemit]
    refine (bind_of_ok (modifyCursor_apply _ _)).trans ?_
    rw [Cursor.advance_splice hins more, removeNext_put hins hword]
  · change w.cursor.code.insertAt w.cursor.position.toNat more = _
    rw [htoNat]
    rfl
  · rw [Cursor.splice, hp]
  · exact Cursor.instruction?_splice hins more
  · intro hend
    change w.cursor.position + more.length = ((w.cursor.splice more).length : Int)
    rw [Cursor.length_splice, hp, hend]
    rfl

/-- The cursor past the only instruction, which is tagged and starts a guarded region. -/
def pastTagged : Workspace Unit where
  cursor :=
    { Cursor.ofCode [{ opcode := .ret, labels := [⟨3⟩], marks := [⟨.beginTry, none⟩] }] with
      position := 1 }
  own := ()

/-- Two instructions are appended there, and removed again. -/
theorem insertion_undone_pastTagged :
    (do insert [.ldnull, .pop]; removeNext 2) pastTagged = .ok () pastTagged ∧
      (do emit [.ldnull, .pop]; advance (-2); removeNext 2) pastTagged = .ok () pastTagged ∧
      emit [.ldnull, .pop] pastTagged = (do emit [.ldnull]; emit [.pop]) pastTagged := by
  have hboth := insertion_undone pastTagged [.ldnull, .pop] [] (p := 1) rfl (by decide) (by decide)
  have hparts := insertion_undone pastTagged [.ldnull] [.pop] (p := 1) rfl (by decide) (by decide)
  exact ⟨hboth.1, hboth.2.1, hparts.2.2.2.2⟩

end Edit

end Weaving
