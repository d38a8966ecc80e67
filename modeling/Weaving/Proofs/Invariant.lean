import Weaving.Edit.Require
import Weaving.Proofs.Outcome

/-!
# Invariants of edits

Where an edit leads from a workspace (`Edit.Leads`) does not depend on whether it succeeds: what it
did before a failure stays done. An edit keeps an invariant of the cursor (`Edit.Keeps`) when the
invariant holds of the cursor that the edit leaves. Edits that keep an invariant compose
(`Keeps.bind`), and what an edit makes of the cursor that it read has to satisfy the invariant only
if that cursor does (`Keeps.cursor_bind`). Moves, searches, guards and the making of labels leave
the code as it is (`Edit.LeavesCode`), so they keep every invariant of the code.
-/

namespace Weaving

namespace Cursor

@[simp] theorem code_search (c : Cursor) (direction : Direction) (holds : Instruction → Bool) :
    (c.search direction holds).code = c.code := by
  unfold search
  split <;> rfl

@[simp] theorem code_find (c : Cursor) (q : Query) : (c.find q).code = c.code := by
  unfold find findFrom
  split <;> rfl

end Cursor

namespace Edit

variable {σ α β : Type}

/-! ## Where edits lead -/

/-- The edit leads from every workspace to one that is related to it, whether it succeeds or
fails. -/
def Leads (R : Workspace σ → Workspace σ → Prop) (e : Edit σ α) : Prop := ∀ w, R w (e.after w)

section
variable {R : Workspace σ → Workspace σ → Prop}

/-- A check that goes on or fails stays where it is. -/
theorem leads_check {p : Prop} [Decidable p] (hrefl : ∀ w, R w w) (err : Error) :
    Leads R (if p then pure () else throw err : Edit σ Unit) := by
  split
  · exact hrefl
  · exact hrefl

/-- What follows an edit runs only if the edit succeeded, on the workspace that it left. -/
theorem after_bind {e : Edit σ α} {f : α → Edit σ β} {w : Workspace σ}
    (htrans : ∀ {w₁ w₂ w₃}, R w₁ w₂ → R w₂ w₃ → R w₁ w₃) (he : R w (e.after w))
    (hf : ∀ a, Leads R (f a)) : R w ((e >>= f).after w) := by
  cases hrun : e w with
  | ok a w₁ =>
    rw [after_of_ok hrun] at he
    have hrest := hf a w₁
    rw [after, bind_of_ok hrun]
    exact htrans he hrest
  | error err w₁ =>
    rw [after_of_error hrun] at he
    rwa [after, bind_of_error hrun]

/-- What an edit did before it failed stays done while the failure is handled. -/
theorem after_tryCatch {e : Edit σ α} {handle : Error → Edit σ α} {w : Workspace σ}
    (htrans : ∀ {w₁ w₂ w₃}, R w₁ w₂ → R w₂ w₃ → R w₁ w₃) (he : R w (e.after w))
    (hhandle : ∀ err, Leads R (handle err)) : R w (Edit.after (tryCatch e handle) w) := by
  cases hrun : e w with
  | ok a w₁ =>
    rw [after_of_ok hrun] at he
    rwa [after, tryCatch_of_ok hrun]
  | error err w₁ =>
    rw [after_of_error hrun] at he
    have hrest := hhandle err w₁
    rw [after, tryCatch_of_error hrun]
    exact htrans he hrest

/-- What follows a look at the cursor runs on the workspace as it is. -/
theorem after_cursor_bind {f : Cursor → Edit σ α} {w : Workspace σ}
    (h : R w ((f w.cursor).after w)) : R w ((cursor >>= f).after w) := by
  rwa [after, bind_of_ok (cursor_apply w)]

end

/-! ## Invariants -/

/-- The invariant survives the edit, whether it succeeds or fails. -/
def Keeps (I : Cursor → Prop) (e : Edit σ α) : Prop :=
  ∀ w : Workspace σ, I w.cursor → I (e.after w).cursor

namespace Keeps

variable {I : Cursor → Prop}

/-- Returning a value keeps everything. -/
theorem pure (a : α) : Keeps I (pure a : Edit σ α) := fun _ h => h

/-- A failure keeps everything. -/
theorem throw (err : Error) : Keeps I (throw err : Edit σ α) := fun _ h => h

/-- Recording an event keeps what holds of the cursor. -/
theorem record (event : Event) : Keeps I (record event : Edit σ Unit) := fun _ h => h

/-- Another cursor can be set if it satisfies the invariant, whatever held of the old one. -/
theorem setCursor {c : Cursor} (h : I c) : Keeps I (setCursor c : Edit σ Unit) := fun _ _ => h

/-- A function of the cursor keeps as an edit what it keeps as a function. -/
theorem modifyCursor {f : Cursor → Cursor} (h : ∀ c, I c → I (f c)) :
    Keeps I (modifyCursor f : Edit σ Unit) := fun w hw => h w.cursor hw

/-- A check keeps everything, whether it passes or not. -/
theorem check {p : Prop} [Decidable p] (err : Error) :
    Keeps I (if p then Pure.pure () else MonadExcept.throw err : Edit σ Unit) :=
  leads_check (R := fun w w' => I w.cursor → I w'.cursor) (fun _ h => h) err

/-- A sequence keeps what both of its edits keep. -/
theorem bind {e : Edit σ α} {f : α → Edit σ β} (he : Keeps I e) (hf : ∀ a, Keeps I (f a)) :
    Keeps I (e >>= f) :=
  fun w => after_bind (R := fun w w' => I w.cursor → I w'.cursor) (fun h₁ h₂ => h₂ ∘ h₁) (he w) hf

/-- The cursor that an edit goes on with is one that satisfies the invariant. -/
theorem cursor_bind {f : Cursor → Edit σ α} (h : ∀ c, I c → Keeps I (f c)) :
    Keeps I (cursor >>= f) := by
  intro w hw
  have hf := h w.cursor hw w hw
  rwa [after, bind_of_ok (cursor_apply w)]

end Keeps

/-! ## Edits that leave the code as it is -/

/-- The edit does not change the code, whether it succeeds or fails. -/
def LeavesCode (e : Edit σ α) : Prop := ∀ code, Keeps (·.code = code) e

/-- A search keeps what holds of the cursor that it ends on. -/
theorem Keeps.land {I : Cursor → Prop} {c : Cursor} (h : I c) : Keeps I (land c : Edit σ Unit) := by
  refine .bind (.setCursor h) fun _ => ?_
  cases c.failure with
  | none => exact .pure ()
  | some failure => exact .record _

/-- A search leaves the code as it is, whether it finds something or not. -/
theorem leavesCode_search (direction : Direction) (holds : Instruction → Bool) :
    LeavesCode (search direction holds : Edit σ Unit) :=
  fun _ => .cursor_bind fun c h => .land ((c.code_search direction holds).trans h)

end Edit

end Weaving
