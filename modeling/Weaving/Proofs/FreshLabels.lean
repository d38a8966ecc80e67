import Weaving.Proofs.Run

/-!
# Labels are made once

A label that an operation makes is above all tags and branch targets of the code and above every
label made before it, on the same cursor, by whatever run, as long as the run does not come behind
the last label. Two sources keep it there: the supply of labels, which only making a label changes
(`Cursor.Change.fresh_eq`), and the code, which is looked through again for each label
(`Cursor.isLeast_nextLabel`). To speak of the labels of a whole run, the run keeps a trace of them
in the state of its caller (`Edit.traced`).
-/

namespace Weaving

variable {σ τ α : Type}

/-! ## The supply of labels -/

namespace Cursor

/-- A change of the cursor does not touch the supply. -/
theorem Change.fresh_eq {c c' : Cursor} (h : c.Change c') : c'.fresh = c.fresh := by
  cases h <;> rfl

/-- However often the cursor changes, no label is taken from the supply. -/
theorem Changes.fresh_eq {c c' : Cursor} (h : c.Changes c') : c'.fresh = c.fresh := by
  induction h with
  | refl => rfl
  | tail _ hchange ih => exact hchange.fresh_eq.trans ih

end Cursor

/-! ## The labels of a run -/

/-- A label that was made, and the code just before. -/
structure Creation where
  before : Code
  label : Label

/-- The state of a caller, with a trace of the labels that were made. -/
structure Traced (τ : Type) where
  created : List Creation
  own : τ

namespace Edit

/-- Make a label and put it into the trace. A failure leaves the trace as it is. -/
def traced (e : Edit (Traced τ) Label) : Edit (Traced τ) Label := do
  let before ← cursor
  let label ← e
  ownState fun s => ((), { s with created := s.created ++ [⟨before.code, label⟩] })
  return label

/-- A label that was made is noted, with the code in which it was made. -/
theorem traced_of_ok {e : Edit (Traced τ) Label} {w w' : Workspace (Traced τ)} {l : Label}
    (h : e w = .ok l w') :
    traced e w = .ok l
      { w' with own := { w'.own with created := w'.own.created ++ [⟨w.cursor.code, l⟩] } } := by
  rw [traced, bind_of_ok (cursor_apply w), bind_of_ok h]
  rfl

/-- An operation that fails makes no label to be noted. -/
theorem traced_of_error {e : Edit (Traced τ) Label} {w w' : Workspace (Traced τ)} {err : Error}
    (h : e w = .error err w') : traced e w = .error err w' := by
  rw [traced, bind_of_ok (cursor_apply w), bind_of_error h]

/-- What a caller writes scripts with when labels are traced: the operations of the library, where
every one that makes a label puts it into the trace, and a state of its own. -/
inductive TracingOp : (α : Type) → Edit (Traced τ) α → Prop
  | library {α : Type} {e : Edit (Traced τ) α} (h : Operation e) : TracingOp α e
  | makesLabel {e : Edit (Traced τ) Label} (h : MakesLabel e) : TracingOp Label (traced e)
  | own {α : Type} (f : τ → α × τ) :
      TracingOp α (ownState fun s => ((f s.own).1, { s with own := (f s.own).2 }))

end Edit

/-- The traced labels were made without coming behind the last label. -/
def Workspace.TraceFits (w : Workspace (Traced τ)) : Prop :=
  ∀ x ∈ w.own.created, x.before.RoomFor x.label

/-- The traced labels increase, are not in the supply any more, and were above all labels of the
code when they were made. -/
structure Workspace.TraceFresh (w : Workspace (Traced τ)) : Prop where
  increasing : w.own.created.Pairwise fun a b => a.label.id < b.label.id
  taken : ∀ x ∈ w.own.created, x.label.id < w.cursor.fresh.next.id
  above : ∀ x ∈ w.own.created, ∀ l ∈ x.before.mentioned, l.id < x.label.id

namespace Workspace.TraceFresh

/-- The trace and the supply are all that counts. -/
theorem of_eq {w w' : Workspace (Traced τ)} (hw : w.TraceFresh)
    (hcreated : w'.own.created = w.own.created) (hfresh : w'.cursor.fresh = w.cursor.fresh) :
    w'.TraceFresh := by
  obtain ⟨hincreasing, htaken, habove⟩ := hw
  rw [← hcreated] at hincreasing htaken habove
  rw [← hfresh] at htaken
  exact ⟨hincreasing, htaken, habove⟩

/-- The next label can be added to the trace once it is taken out of the supply. -/
theorem append {w w' : Workspace (Traced τ)} (hw : w.TraceFresh) (hroom : w.cursor.HasRoom)
    (hfresh : w'.cursor.fresh = ⟨w.cursor.nextLabel.next⟩)
    (hown : w'.own.created = w.own.created ++ [⟨w.cursor.code, w.cursor.nextLabel⟩]) :
    w'.TraceFresh := by
  obtain ⟨hfrom, habove⟩ := (Cursor.isLeast_nextLabel hroom.skipped).1
  have hnext := Label.id_lt_next hroom.made
  have hlt : ∀ x ∈ w.own.created, x.label.id < w.cursor.nextLabel.id :=
    fun x hx => UInt64.lt_of_lt_of_le (hw.taken x hx) hfrom
  refine ⟨?_, ?_, ?_⟩
  · rw [hown, List.pairwise_append]
    refine ⟨hw.increasing, List.pairwise_singleton _ _, fun x hx y hy => ?_⟩
    rw [List.mem_singleton.1 hy]
    exact hlt x hx
  · rw [hown, hfresh]
    refine List.forall_mem_append.2 ⟨fun x hx => ?_, List.forall_mem_singleton.2 hnext⟩
    exact UInt64.lt_trans (hlt x hx) hnext
  · rw [hown]
    exact List.forall_mem_append.2 ⟨hw.above, List.forall_mem_singleton.2 habove⟩

end Workspace.TraceFresh

/-- What a step of a run keeps: the trace is fresh if its labels were made without coming behind the
last one. The labels of a trace are in every later one, so what fits later has fitted before. -/
def Workspace.KeepsTraceFresh (w w' : Workspace (Traced τ)) : Prop :=
  (w.TraceFits → w.TraceFresh) → w'.TraceFits → w'.TraceFresh

/-- Changes of the cursor leave the trace and the supply alone. -/
theorem Workspace.Changed.keepsTraceFresh {w w' : Workspace (Traced τ)} (h : w.Changed w') :
    w.KeepsTraceFresh w' := by
  intro hw hfits
  have hfits' : w.TraceFits := by
    unfold TraceFits
    rw [← h.own]
    exact hfits
  exact (hw hfits').of_eq (congrArg Traced.created h.own) h.cursor.fresh_eq

/-- Every operation keeps the trace fresh, and so does one that makes a label and puts it into the
trace. -/
theorem Edit.TracingOp.keeps_traceFresh {e : Edit (Traced τ) α} (h : TracingOp α e) :
    Leads Workspace.KeepsTraceFresh e := by
  cases h with
  | library h => exact fun w => (h.changes w).keepsTraceFresh
  | @makesLabel e h =>
    intro w
    obtain ⟨err, hrun⟩ | ⟨w₁, hrun, hchanged⟩ := h.outcome w
    · rw [after_of_error (traced_of_error hrun)]
      exact fun hw => hw
    · rw [after_of_ok (traced_of_ok hrun)]
      intro hw hfits
      have hown : w₁.own.created = w.own.created := congrArg Traced.created hchanged.own
      simp only [Workspace.TraceFits, hown] at hfits
      obtain ⟨hbefore, hnew⟩ := List.forall_mem_append.1 hfits
      have hroom : w.cursor.HasRoom := hnew _ (List.mem_singleton_self _)
      refine (hw hbefore).append hroom hchanged.cursor.fresh_eq ?_
      rw [hown]
  | own f => exact fun w hw hfits => (hw hfits).of_eq rfl rfl

/-- The labels that operations make over the whole life of a cursor increase strictly, whatever else
is done to the code in between, and each is above every tag and every branch target of the code in
which it was made, as long as none of them comes behind the last label. -/
theorem Step.created_increasing_run (code : Code) (settings : Settings) (log : List Event) (own : τ)
    (steps : List (Step (Edit.TracingOp (τ := τ)))) :
    let created :=
      (run steps { cursor := .ofCode code settings, log, own := ⟨[], own⟩ }).own.created
    (∀ x ∈ created, x.before.RoomFor x.label) →
    (created.Pairwise fun a b => a.label.id < b.label.id) ∧
      ∀ x ∈ created, ∀ l, l ∈ x.before.tags ∨ l ∈ x.before.targets → l.id < x.label.id := by
  intro created hroom
  have hR : Workspace.AllowsChanges (Workspace.KeepsTraceFresh (τ := τ)) :=
    ⟨Workspace.Changed.keepsTraceFresh, fun h₁ h₂ => h₂ ∘ h₁⟩
  have hstart : Workspace.TraceFresh
      { cursor := .ofCode code settings, log, own := (⟨[], own⟩ : Traced τ) } :=
    ⟨.nil, fun _ hx => (by cases hx), fun _ hx => (by cases hx)⟩
  have hend := leads_run hR Edit.TracingOp.keeps_traceFresh steps _ (fun _ => hstart) hroom
  exact ⟨hend.increasing, fun x hx l hl => hend.above x hx l (Code.mem_mentioned.2 hl)⟩

/-- A label is made and its instruction removed, making a label fails, and a label is made again. -/
def Step.afterRemoval : List (Step (Edit.TracingOp (τ := Unit))) :=
  [⟨Edit.toFirst, .operation (.library .toFirst)⟩,
   ⟨Edit.traced (Edit.newLabelAt 0), .operation (.makesLabel (.newLabelAt 0))⟩,
   ⟨Edit.remove, .operation (.library .remove)⟩,
   ⟨Edit.traced (Edit.newLabelAt 5), .operation (.makesLabel (.newLabelAt 5))⟩,
   ⟨Edit.traced Edit.newLabel, .operation (.makesLabel .newLabel)⟩]

/-- The label of an instruction that was removed is not made again, and a failure makes none. -/
theorem Step.created_increasing_run_afterRemoval :
    let created := (run afterRemoval
      { cursor := .ofCode [.ldnull, .branch .br ⟨7⟩], own := ⟨[], ()⟩ }).own.created
    created.map (·.label.id) = [8, 9] ∧ (∀ x ∈ created, x.before.RoomFor x.label) ∧
      created.Pairwise fun a b => a.label.id < b.label.id := by
  have hroom : ∀ x ∈ (run afterRemoval
      { cursor := .ofCode [.ldnull, .branch .br ⟨7⟩], own := ⟨[], ()⟩ }).own.created,
      x.before.RoomFor x.label := by decide
  exact ⟨by decide, hroom, (created_increasing_run _ _ _ _ afterRemoval hroom).1⟩

end Weaving
