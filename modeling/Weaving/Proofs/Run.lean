import Weaving.Proofs.Change
import Weaving.Proofs.Push

/-!
# Runs of edits

A caller works on a cursor with scripts (`Script`): operations one after the other, where what comes
next may depend on all that was seen before, failures that are raised and handled, and matches that
are repeated with a script for an action. A run is a list of scripts, and a script that fails does
not stop it (`Step.run`). What changes of a cursor preserve, operations preserve, and therefore
scripts and runs do (`Script.leads`, `Step.leads_run`). The first result of this kind is that the
position never leaves its range (`Step.position_range_run`).
-/

namespace Weaving

open Edit (Leads after_bind after_tryCatch after_cursor_bind)

variable {σ α : Type}

/-! ## Scripts -/

/-- The edits that are written with the given operations. -/
inductive Script (Op : (α : Type) → Edit σ α → Prop) : {α : Type} → Edit σ α → Prop
  | operation {α : Type} {e : Edit σ α} (h : Op α e) : Script Op e
  | pure {α : Type} (a : α) : Script Op (pure a)
  | throw {α : Type} (err : Error) : Script Op (throw err : Edit σ α)
  | bind {α β : Type} {e : Edit σ α} {f : α → Edit σ β} (he : Script Op e)
      (hf : ∀ a, Script Op (f a)) : Script Op (e >>= f)
  | tryCatch {α : Type} {e : Edit σ α} {handle : Error → Edit σ α} (he : Script Op e)
      (hhandle : ∀ err, Script Op (handle err)) : Script Op (tryCatch e handle)
  | forEachMatch (rounds : Nat) {action : Edit σ Unit} (h : Script Op action) :
      Script Op (Edit.forEachMatch rounds action)
  | forEachMatchOrElse (rounds : Nat) {action : Edit σ Unit}
      {notFound : Option Failure → Edit σ Unit} (h : Script Op action)
      (hnot : ∀ failure, Script Op (notFound failure)) :
      Script Op (Edit.forEachMatchOrElse rounds action notFound)

/-- A relation of workspaces that changes of the cursor satisfy, one after the other. -/
structure Workspace.AllowsChanges (R : Workspace σ → Workspace σ → Prop) : Prop where
  changed : ∀ {w w' : Workspace σ}, w.Changed w' → R w w'
  trans : ∀ {w₁ w₂ w₃ : Workspace σ}, R w₁ w₂ → R w₂ w₃ → R w₁ w₃

/-- A workspace is related to itself: no change is one of the changes. -/
theorem Workspace.AllowsChanges.refl {R : Workspace σ → Workspace σ → Prop} (hR : AllowsChanges R)
    (w : Workspace σ) : R w w := hR.changed (.refl w)

section
variable {R : Workspace σ → Workspace σ → Prop} (hR : Workspace.AllowsChanges R)
include hR

/-- A repetition leads where its action and the searches for further matches lead. -/
theorem Edit.leads_forEachFrom (q : Query) {action : Edit σ Unit} (haction : Leads R action)
    (rounds count : Nat) : Leads R (forEachFrom q action rounds count) := by
  induction rounds generalizing count with
  | zero =>
    refine fun w => after_cursor_bind ?_
    split
    · exact hR.refl w
    · exact hR.refl w
  | succ rounds ih =>
    refine fun w => after_cursor_bind ?_
    split
    · refine after_bind hR.trans (haction w) fun _ w₁ => after_cursor_bind ?_
      have hland := w₁.cursor.changes_findFrom (q.restart w₁.cursor.position) q
      exact after_bind hR.trans (hR.changed (.land hland)) fun _ => ih (count + 1)
    · exact hR.refl w

/-- Forgetting the match and logging the count are changes that the relation allows. -/
theorem Edit.leads_forEachMatch (rounds : Nat) {action : Edit σ Unit} (haction : Leads R action) :
    Leads R (forEachMatch rounds action) := by
  have hforget : Edit.Changes (modifyCursor fun c => { c with remembered := none } : Edit σ Unit) :=
    .modifyCursor fun c => .note c.captures c.failure none
  refine fun w => after_cursor_bind ?_
  split
  · exact hR.refl w
  · next q _ =>
    refine after_bind hR.trans (hR.changed (hforget w)) fun _ w₁ => ?_
    refine after_bind hR.trans (leads_forEachFrom hR q haction rounds 0 w₁) fun _ w₂ => ?_
    exact hR.changed (Edit.Changes.bind (.record _) (fun _ => .bind hforget fun _ => .pure _) w₂)

/-- A script leads where its operations lead. -/
theorem Script.leads {Op : (α : Type) → Edit σ α → Prop}
    (hop : ∀ {α : Type} {e : Edit σ α}, Op α e → Leads R e) {e : Edit σ α} (h : Script Op e) :
    Leads R e := by
  induction h with
  | operation h => exact hop h
  | pure a => exact hR.refl
  | throw err => exact hR.refl
  | bind _ _ ihe ihf => exact fun w => after_bind hR.trans (ihe w) ihf
  | tryCatch _ _ ihe ihhandle => exact fun w => after_tryCatch hR.trans (ihe w) ihhandle
  | forEachMatch rounds _ ih => exact Edit.leads_forEachMatch hR rounds ih
  | forEachMatchOrElse rounds _ _ ih ihnot =>
    refine fun w => after_bind hR.trans (Edit.leads_forEachMatch hR rounds ih w) fun count w₁ => ?_
    split
    · refine after_cursor_bind (after_bind hR.trans (ihnot _ w₁) fun _ w₂ => ?_)
      exact hR.refl w₂
    · exact hR.refl w₁

end

/-! ## Runs -/

/-- A script, as one step of a run. -/
structure Step (Op : (α : Type) → Edit σ α → Prop) where
  {α : Type}
  edit : Edit σ α
  script : Script Op edit

namespace Step

variable {Op : (α : Type) → Edit σ α → Prop}

/-- The workspace after the steps were run in order. A step that fails does not stop the run. -/
def run (steps : List (Step Op)) (w : Workspace σ) : Workspace σ :=
  steps.foldl (fun w s => s.edit.after w) w

/-- A run leads where its operations lead. -/
theorem leads_run {R : Workspace σ → Workspace σ → Prop} (hR : Workspace.AllowsChanges R)
    (hop : ∀ {α : Type} {e : Edit σ α}, Op α e → Leads R e) (steps : List (Step Op))
    (w : Workspace σ) : R w (run steps w) := by
  induction steps generalizing w with
  | nil => exact hR.refl w
  | cons s rest ih => exact hR.trans (s.script.leads hR hop w) (ih (s.edit.after w))

end Step

/-! ## The range of positions -/

/-- A removal shortens the code by the length of the range. -/
theorem Code.length_removeBetween {code : Code} {low high : Nat} (hle : low ≤ high + 1)
    (hhigh : high < code.length) :
    (code.removeBetween low high).length + (high + 1 - low) = code.length := by
  simp only [removeBetween, List.length_append, List.length_take, List.length_drop]
  omega

namespace Cursor

/-- The position is an index of the code or one of the two sentinels. -/
def InRange (c : Cursor) : Prop := -1 ≤ c.position ∧ c.position ≤ c.length

/-- Every change of a cursor keeps its position in range. -/
theorem Change.inRange {c c' : Cursor} (h : c.Change c') (hc : c.InRange) : c'.InRange := by
  obtain ⟨hlow, hhigh⟩ := hc
  cases h with
  | note captures failure remembered => exact ⟨hlow, hhigh⟩
  | move position low high => exact ⟨low, high⟩
  | rewrite h =>
    refine ⟨hlow, ?_⟩
    change c.position ≤ (_ : Code).length
    rwa [h]
  | put more hins =>
    have hlen : (c.put more).length = c.length + more.length := c.length_splice more
    refine ⟨hlow, ?_⟩
    change c.position ≤ (c.put more).length
    omega
  | splice more hins =>
    have hlen := c.length_splice more
    change -1 ≤ c.position + more.length ∧ c.position + more.length ≤ (c.splice more).length
    omega
  | @removeHere first last hfirst hle hlast =>
    have hlen := Code.length_removeBetween hle hlast
    change -1 ≤ c.position ∧ c.position ≤ (c.code.removeBetween first last).length
    unfold length at hlast
    omega
  | @cut low high hle hcut =>
    have hlen := Code.length_removeBetween (Nat.le_succ_of_le hle) hcut
    dsimp only [InRange, Cursor.cut, length] at hhigh hcut ⊢
    split
    · omega
    · split <;> omega

/-- No change of a cursor takes it beyond a sentinel. -/
theorem Changes.inRange {c c' : Cursor} (h : c.Changes c') (hc : c.InRange) : c'.InRange := by
  induction h with
  | refl => exact hc
  | tail _ hchange ih => exact hchange.inRange ih

/-- In range, the cursor is on an instruction unless it is on a sentinel. -/
theorem InRange.isValid_iff {c : Cursor} (h : c.InRange) :
    c.isValid = true ↔ c.position ≠ -1 ∧ c.position ≠ c.length := by
  obtain ⟨hlow, hhigh⟩ := h
  rw [isValid, Bool.and_eq_true, decide_eq_true_iff, decide_eq_true_iff]
  omega

end Cursor

namespace Edit

/-- Read or change the state of the caller. -/
def ownState (f : σ → α × σ) : Edit σ α :=
  modifyGet fun w => ((f w.own).1, { w with own := (f w.own).2 })

/-- What a caller writes scripts with: the operations of the library and a state of its own. -/
inductive CallerOp : (α : Type) → Edit σ α → Prop
  | library {α : Type} {e : Edit σ α} (h : Operation e) : CallerOp α e
  | makesLabel {e : Edit σ Label} (h : MakesLabel e) : CallerOp Label e
  | own {α : Type} (f : σ → α × σ) : CallerOp α (ownState f)

/-- What a caller can do keeps the cursor within the sentinels. -/
theorem CallerOp.keeps_inRange {e : Edit σ α} (h : CallerOp α e) :
    Leads (fun w w' => w.cursor.InRange → w'.cursor.InRange) e := by
  cases h with
  | library h => exact fun w => (h.changes w).cursor.inRange
  | makesLabel h =>
    intro w hw
    obtain ⟨err, hrun⟩ | ⟨w', hrun, hchanged⟩ := h.outcome w
    · rwa [after_of_error hrun]
    · -- making the label moves nothing
      have hdrop : w.cursor.dropNext.InRange := hw
      rw [after_of_ok hrun]
      exact hchanged.cursor.inRange hdrop
  | own f => exact fun w hw => hw

end Edit

/-- After every run of operations from any code, failed ones included, the position is in range, and
the cursor is on an instruction exactly when it is on neither sentinel. -/
theorem Step.position_range_run (code : Code) (settings : Settings) (log : List Event) (own : σ)
    (steps : List (Step (Edit.CallerOp (σ := σ)))) :
    let c := (run steps { cursor := .ofCode code settings, log, own }).cursor
    (-1 ≤ c.position ∧ c.position ≤ c.length) ∧
      (c.isValid = true ↔ c.position ≠ -1 ∧ c.position ≠ c.length) := by
  have hR : Workspace.AllowsChanges fun w w' : Workspace σ =>
      w.cursor.InRange → w'.cursor.InRange :=
    ⟨fun h => h.cursor.inRange, fun h₁ h₂ => h₂ ∘ h₁⟩
  have hstart : (Cursor.ofCode code settings).InRange :=
    ⟨Int.le_refl (-1), Int.le_trans (by decide : (-1 : Int) ≤ 0) (Int.natCast_nonneg _)⟩
  have hend := leads_run hR Edit.CallerOp.keeps_inRange steps
    { cursor := .ofCode code settings, log, own } hstart
  exact ⟨hend, hend.isValid_iff⟩

end Weaving
