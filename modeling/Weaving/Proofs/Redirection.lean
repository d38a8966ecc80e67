import Weaving.Proofs.Removal

/-!
# Redirected jumps

Which jumps code has depends on its instructions only through the labels that tag them
(`Code.TagsAt`) and the labels that they go to (`Code.TargetsAt`). Moving the labels of one
instruction to another changes no target, and takes every tag of the one to the other
(`LabelsMoved.tagsAt_iff`). So the jumps to the one go to the other, and all others stay. The one
is then without tags, and removing instructions without tags breaks no jump
(`WellLabelled.removeBetween_of_untagged`): an instruction that is jumped to is removed safely after
its labels were moved (`moveLabels_redirects_jumps`).
-/

namespace Weaving

/-- Of the further labels those are appended that are not there, each at its first place. -/
theorem joinTags_eq (labels more : List Label) :
    joinTags labels more = labels ++ (more.filter (· ∉ labels)).eraseDups := by
  induction more generalizing labels with
  | nil => simp [joinTags]
  | cons a rest ih =>
    have hstep : joinTags labels (a :: rest) =
        joinTags (if a ∈ labels then labels else labels ++ [a]) rest := rfl
    rw [hstep, ih]
    split
    · next ha => rw [List.filter_cons_of_neg (by simpa using ha)]
    · next ha =>
      -- once it is appended, the label counts as one that is there
      rw [List.filter_cons_of_pos (by simpa using ha), List.eraseDups_cons, List.append_assoc,
        List.filter_filter]
      refine congrArg (labels ++ a :: ·) (congrArg List.eraseDups (List.filter_congr ?_))
      intro l _
      by_cases hl : l = a <;> simp [hl]

/-- Joined labels are those of both lists. -/
theorem mem_joinTags {labels more : List Label} {l : Label} :
    l ∈ joinTags labels more ↔ l ∈ labels ∨ l ∈ more := by
  rw [joinTags_eq, List.mem_append, List.mem_eraseDups, List.mem_filter, decide_eq_true_eq]
  by_cases hl : l ∈ labels <;> simp [hl]

namespace Code

/-! ## Jumps through labels -/

/-- The label tags the instruction at the index. -/
def TagsAt (code : Code) (l : Label) (k : Nat) : Prop :=
  ∃ i, code[k]? = some i ∧ l ∈ i.labels

/-- The label is a branch target of the instruction at the index. -/
def TargetsAt (code : Code) (l : Label) (k : Nat) : Prop :=
  ∃ i, code[k]? = some i ∧ l ∈ i.targets

section
variable {code code' : Code} {source target : Nat} {l : Label}

/-- A jump is a label that is a target at its start and a tag at its end. -/
theorem jumps_iff {i j : Nat} :
    code.Jumps i j ↔ ∃ l, code.TargetsAt l i ∧ code.TagsAt l j := by
  constructor
  · rintro ⟨a, b, ha, hb, l, htarget, htag⟩
    exact ⟨l, ⟨a, ha, htarget⟩, ⟨b, hb, htag⟩⟩
  · rintro ⟨l, ⟨a, ha, htarget⟩, ⟨b, hb, htag⟩⟩
    exact ⟨a, b, ha, hb, l, htarget, htag⟩

/-- A tag of the code is one at some index. -/
theorem mem_tags_iff : l ∈ code.tags ↔ ∃ k, code.TagsAt l k := by
  unfold tags
  rw [List.mem_flatMap]
  constructor
  · rintro ⟨i, hi, hl⟩
    obtain ⟨k, hk⟩ := List.mem_iff_getElem?.1 hi
    exact ⟨k, i, hk, hl⟩
  · rintro ⟨k, i, hk, hl⟩
    exact ⟨i, List.mem_of_getElem? hk, hl⟩

/-! ## Moved labels -/

/-- The second code is the first one with the labels of the instruction `a` at `source` moved to
the instruction `b` at `target`. -/
structure LabelsMoved (code : Code) (source target : Nat) (a b : Instruction) (code' : Code) :
    Prop where
  ne : source ≠ target
  source_eq : code[source]? = some a
  target_eq : code[target]? = some b
  source_eq' : code'[source]? = some (a.moveLabels b).1
  target_eq' : code'[target]? = some (a.moveLabels b).2
  other_eq' : ∀ k, k ≠ source → k ≠ target → code'[k]? = code[k]?

/-- Taking the tags off one instruction and adding them to another moves them. -/
theorem labelsMoved_modify {a b : Instruction} (hne : source ≠ target)
    (ha : code[source]? = some a) (hb : code[target]? = some b) :
    code.LabelsMoved source target a b
      ((code.modify source (·.withoutTags)).modify target (·.addTags a.labels)) where
  ne := hne
  source_eq := ha
  target_eq := hb
  source_eq' := by
    rw [List.getElem?_modify_ne _ _ hne.symm, List.getElem?_modify_eq, ha]
    rfl
  target_eq' := by
    rw [List.getElem?_modify_eq, List.getElem?_modify_ne _ _ hne, hb]
    rfl
  other_eq' k hs ht := by
    rw [List.getElem?_modify_ne _ _ ht.symm, List.getElem?_modify_ne _ _ hs.symm]

namespace LabelsMoved

variable {a b : Instruction} (h : code.LabelsMoved source target a b code')
include h

/-- Every instruction has the targets that it had. -/
theorem targetsAt_iff {k : Nat} : code'.TargetsAt l k ↔ code.TargetsAt l k := by
  unfold TargetsAt
  by_cases hs : k = source
  · subst hs
    rw [h.source_eq', h.source_eq]
    simp only [Option.some.injEq, exists_eq_left']
    rfl
  by_cases ht : k = target
  · subst ht
    rw [h.target_eq', h.target_eq]
    simp only [Option.some.injEq, exists_eq_left']
    rfl
  rw [h.other_eq' k hs ht]

/-- The tags of the source are tags of the target. -/
theorem tagsAt_iff {k : Nat} :
    code'.TagsAt l k ↔
      k ≠ source ∧ (code.TagsAt l k ∨ k = target ∧ code.TagsAt l source) := by
  unfold TagsAt
  by_cases hs : k = source
  · subst hs
    rw [h.source_eq']
    simp [Instruction.moveLabels]
  by_cases ht : k = target
  · subst ht
    rw [h.target_eq', h.target_eq, h.source_eq]
    simp [Instruction.moveLabels, Instruction.addTags, mem_joinTags, hs]
  rw [h.other_eq' k hs ht]
  simp [hs, ht]

/-- The jumps to the source go to the target. -/
theorem jumps_iff {i j : Nat} :
    code'.Jumps i j ↔ j ≠ source ∧ (code.Jumps i j ∨ j = target ∧ code.Jumps i source) := by
  simp only [Code.jumps_iff, h.targetsAt_iff, h.tagsAt_iff]
  constructor
  · rintro ⟨l, htarget, hj, htag | ⟨rfl, htag⟩⟩
    · exact ⟨hj, .inl ⟨l, htarget, htag⟩⟩
    · exact ⟨hj, .inr ⟨rfl, l, htarget, htag⟩⟩
  · rintro ⟨hj, ⟨l, htarget, htag⟩ | ⟨rfl, l, htarget, htag⟩⟩
    · exact ⟨l, htarget, hj, .inl htag⟩
    · exact ⟨l, htarget, hj, .inr ⟨rfl, htag⟩⟩

/-- No tag appears and none is lost. -/
theorem mem_tags_iff : l ∈ code'.tags ↔ l ∈ code.tags := by
  simp only [Code.mem_tags_iff, h.tagsAt_iff]
  constructor
  · rintro ⟨k, -, htag | ⟨-, htag⟩⟩
    · exact ⟨k, htag⟩
    · exact ⟨source, htag⟩
  · rintro ⟨k, htag⟩
    by_cases hk : k = source
    · subst hk
      exact ⟨target, h.ne.symm, .inr ⟨rfl, htag⟩⟩
    · exact ⟨k, hk, .inl htag⟩

end LabelsMoved

/-! ## Removing instructions without tags -/

/-- Code stays well labelled when instructions without tags are removed. -/
theorem WellLabelled.removeBetween_of_untagged {low high : Nat} (h : code.WellLabelled)
    (hle : low ≤ high) (hhigh : high < code.length)
    (huntagged : ∀ k l, low ≤ k → k ≤ high → ¬ code.TagsAt l k) :
    (code.removeBetween low high).WellLabelled := by
  have hslice : (code.slice low high).tags = [] := by
    refine List.eq_nil_iff_forall_not_mem.2 fun l hl => ?_
    obtain ⟨k, i, ⟨hlow, hhigh'⟩, hi, hl⟩ := mem_flatMap_slice.1 hl
    exact huntagged k l hlow hhigh' ⟨i, hi, hl⟩
  have htags : code.tags.Perm ((code.slice low high).tags ++ (code.removeBetween low high).tags) :=
    flatMap_removeBetween_perm hle hhigh
  rw [hslice, List.nil_append] at htags
  refine h.of_perm htags.symm fun l hl => h.tagged l ?_
  obtain ⟨k, i, -, hi, hl⟩ := (mem_flatMap_removeBetween hle hhigh).1 hl
  exact List.mem_flatMap.2 ⟨i, List.mem_of_getElem? hi, hl⟩

end

end Code

namespace Edit

open Code

variable {σ : Type}

/-- Moving the labels of one instruction to another redirects the jumps to it and keeps all others;
both instructions get the labels that moving them directly gives, which are none and those that the
other had, with the moved ones behind them that it did not have; and the code keeps its tags. If the
cursor is on the one, and the code passes the check of its labels, then the instruction can be
removed next: the code still passes, and the instructions left jump to each other as before, or to
the other instruction in place of the removed one. -/
theorem moveLabels_redirects_jumps (w : Workspace σ) {source target : Nat}
    (hs : source < w.cursor.length) (ht : target < w.cursor.length) (hne : source ≠ target) :
    let code := w.cursor.code
    ∃ w₁, moveLabels source target w = .ok () w₁ ∧
      (∀ i, w₁.cursor.code.Jumps i target ↔ code.Jumps i target ∨ code.Jumps i source) ∧
      (∀ i, ¬ w₁.cursor.code.Jumps i source) ∧
      (∀ i j, j ≠ source → j ≠ target → (w₁.cursor.code.Jumps i j ↔ code.Jumps i j)) ∧
      (∃ a b, code[source]? = some a ∧ code[target]? = some b ∧
        w₁.cursor.code[source]? = some (a.moveLabels b).1 ∧
        w₁.cursor.code[target]? = some (a.moveLabels b).2 ∧ (a.moveLabels b).1.labels = [] ∧
        (a.moveLabels b).2.labels = b.labels ++ (a.labels.filter (· ∉ b.labels)).eraseDups) ∧
      (∀ l, l ∈ w₁.cursor.code.tags ↔ l ∈ code.tags) ∧
      (w.cursor.position = source → w.cursor.checkLabels = .ok () →
        ∃ w₂, remove w₁ = .ok () w₂ ∧ w₂.cursor.checkLabels = .ok () ∧
          ∀ i j, i ≠ source → j ≠ source →
            (w₂.cursor.code.Jumps (survivor source source i) (survivor source source j) ↔
              code.Jumps i j ∨ j = target ∧ code.Jumps i source)) := by
  intro code
  have ha : code[source]? = some code[source] := List.getElem?_eq_getElem hs
  have hb : code[target]? = some code[target] := List.getElem?_eq_getElem ht
  have hmoved := labelsMoved_modify hne ha hb
  refine ⟨_, moveLabels_of_ne ha ht hne, fun i => ?_, fun i => ?_, fun i j hj hj' => ?_,
    ⟨_, _, ha, hb, hmoved.source_eq', hmoved.target_eq', rfl, joinTags_eq _ _⟩,
    fun l => hmoved.mem_tags_iff, ?_⟩
  · refine hmoved.jumps_iff.trans ?_
    simp [hne.symm]
  · exact fun hjump => (hmoved.jumps_iff.1 hjump).1 rfl
  · refine hmoved.jumps_iff.trans ?_
    simp [hj, hj']
  intro hposition hlabels
  -- the source is without tags now, so nothing that is left jumps to it
  have hwell := (Cursor.checkLabels_eq_ok_iff.1 hlabels).moveLabels ha ht hne
  have hlt := (List.getElem?_eq_some_iff.1 hmoved.source_eq').1
  refine ⟨_, remove_of_lt hposition hlt, Cursor.checkLabels_eq_ok_iff.2 ?_, fun i j hi hj => ?_⟩
  · refine hwell.removeBetween_of_untagged (Nat.le_refl source) hlt fun k l hlow hhigh htag => ?_
    exact (hmoved.tagsAt_iff.1 htag).1 (Nat.le_antisymm hhigh hlow)
  · have hout : ∀ k, k ≠ source → ¬ (source ≤ k ∧ k ≤ source) := by omega
    refine (jumps_survivor (Nat.le_refl source) hlt (hout i hi) (hout j hj)).trans ?_
    simp [hmoved.jumps_iff, hj]

/-- The cursor on the first of two instructions that a jump table goes to. A branch behind them goes
to the first one as well, by another label. -/
def tableOverTagged : Workspace Unit where
  cursor :=
    { Cursor.ofCode
        [{ opcode := .switch, operand := some (.labels [⟨3⟩, ⟨2⟩, ⟨1⟩]) },
         { opcode := .nop, labels := [⟨1⟩, ⟨5⟩] }, { opcode := .pop, labels := [⟨2⟩] },
         { Instruction.branch .br ⟨5⟩ with labels := [⟨3⟩] }] with
      position := 1 }
  own := ()

/-- With its labels moved to the second instruction, the first one is removed: the table and the
branch, which are one place further to the front now, go to what is left. -/
theorem moveLabels_redirects_jumps_tableOverTagged :
    tableOverTagged.cursor.checkLabels = .ok () ∧
      ∃ w₁ w₂, moveLabels 1 2 tableOverTagged = .ok () w₁ ∧ remove w₁ = .ok () w₂ ∧
        w₂.cursor.checkLabels = .ok () ∧ w₂.cursor.code.Jumps 0 1 ∧ w₂.cursor.code.Jumps 2 1 ∧
        w₂.cursor.code.Jumps 0 2 ∧ ¬ w₂.cursor.code.Jumps 2 2 := by
  have hlabels : tableOverTagged.cursor.checkLabels = .ok () :=
    Cursor.checkLabels_eq_ok_iff.2 (by decide)
  have hs : 1 < tableOverTagged.cursor.length := by decide
  have ht : 2 < tableOverTagged.cursor.length := by decide
  obtain ⟨w₁, hmove, -, -, -, -, -, hremove⟩ :=
    moveLabels_redirects_jumps tableOverTagged hs ht (by decide)
  obtain ⟨w₂, hrun, hcheck, hjumps⟩ := hremove rfl hlabels
  refine ⟨hlabels, w₁, w₂, hmove, hrun, hcheck, (hjumps 0 2 (by decide) (by decide)).2 ?_,
    (hjumps 3 2 (by decide) (by decide)).2 ?_, (hjumps 0 3 (by decide) (by decide)).2 ?_, ?_⟩
  · exact .inl ⟨_, _, rfl, rfl, ⟨2⟩, by decide, by decide⟩
  · exact .inr ⟨rfl, _, _, rfl, rfl, ⟨5⟩, by decide, by decide⟩
  · exact .inl ⟨_, _, rfl, rfl, ⟨3⟩, by decide, by decide⟩
  · intro hjump
    rcases (hjumps 3 3 (by decide) (by decide)).1 hjump with
      ⟨a, b, ha, hb, l, htarget, htag⟩ | ⟨habsurd, -⟩
    · cases ha
      cases hb
      rw [List.mem_singleton.1 htarget] at htag
      exact absurd htag (by decide)
    · exact absurd habsurd (by decide)

end Edit

end Weaving
