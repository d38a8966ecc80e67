import Weaving.Proofs.Jumps
import Weaving.Proofs.LabelSafety

/-!
# Removal

Removing a range of instructions is undone by inserting them again (`Code.insertAt_removeBetween`),
so what is known of insertions tells what a removal does: the instructions outside the range are
found where `Code.survivor` puts them, and jump to each other as before (`jumps_survivor`), and the
labels of the code are those of the range and those of the rest. What breaks are the jumps from
outside into the range. Their labels (`Code.TiesInto`) are the ones that dangle in well-labelled
code after the removal (`removeBetween_dangling`), and no tag is repeated.
-/

namespace Weaving

namespace Code

/-- Where an instruction outside the range is after the range was removed. -/
def survivor (low high k : Nat) : Nat :=
  if k < low then k else k - (high + 1 - low)

/-- The label ties a branch outside the range to an instruction in the range. -/
structure TiesInto (code : Code) (low high : Nat) (l : Label) : Prop where
  tag : ∃ k i, (low ≤ k ∧ k ≤ high) ∧ code[k]? = some i ∧ l ∈ i.labels
  target : ∃ k i, ¬ (low ≤ k ∧ k ≤ high) ∧ code[k]? = some i ∧ l ∈ i.targets

section
variable {code : Code} {low high : Nat}

/-- A range in the code has all of its instructions. -/
theorem length_slice (hhigh : high < code.length) :
    (code.slice low high).length = high + 1 - low := by
  simp only [slice, List.length_drop, List.length_take]
  omega

/-- The code is what is before the range, the range and what is behind it. -/
theorem take_append_slice_append_drop (hle : low ≤ high) :
    code.take low ++ code.slice low high ++ code.drop (high + 1) = code := by
  have hfront := List.take_append_drop low (code.take (high + 1))
  rw [List.take_take, Nat.min_eq_left (by omega)] at hfront
  rw [slice, hfront, List.take_append_drop]

/-- Inserting what was removed gives the code back. -/
theorem insertAt_removeBetween (hle : low ≤ high) (hhigh : high < code.length) :
    (code.removeBetween low high).insertAt low (code.slice low high) = code := by
  have htake : (code.take low).length = low := by
    rw [List.length_take]
    omega
  rw [insertAt, removeBetween, List.take_left' htake, List.drop_left' htake,
    take_append_slice_append_drop hle]

/-! ## Instructions outside the range -/

/-- Inserting what was removed puts the instructions outside back to where they were. -/
theorem shift_survivor {k : Nat} (hle : low ≤ high) (hk : ¬ (low ≤ k ∧ k ≤ high)) :
    shift low (high + 1 - low) (survivor low high k) = k := by
  unfold shift survivor
  by_cases hlow : k < low
  · rw [if_pos hlow, if_pos hlow]
  · rw [if_neg hlow, if_neg (by omega)]
    omega

/-- An instruction outside the range is still there after the removal. -/
theorem getElem?_survivor {k : Nat} (hle : low ≤ high) (hhigh : high < code.length)
    (hk : ¬ (low ≤ k ∧ k ≤ high)) :
    (code.removeBetween low high)[survivor low high k]? = code[k]? := by
  have hlow : low ≤ (code.removeBetween low high).length := by
    simp only [removeBetween, List.length_append, List.length_take]
    omega
  have hget := getElem?_insertAt_shift (code.slice low high) (survivor low high k) hlow
  rw [insertAt_removeBetween hle hhigh, length_slice hhigh, shift_survivor hle hk] at hget
  exact hget.symm

/-- Every index of the rest is that of an instruction outside the range. -/
theorem exists_survivor_eq (j : Nat) (hle : low ≤ high) :
    ∃ k, ¬ (low ≤ k ∧ k ≤ high) ∧ survivor low high k = j := by
  unfold survivor
  by_cases hlow : j < low
  · exact ⟨j, by omega, if_pos hlow⟩
  · refine ⟨j + (high + 1 - low), by omega, ?_⟩
    rw [if_neg (by omega)]
    omega

/-- Instructions outside the range jump to each other after the removal exactly if they did so
before. -/
theorem jumps_survivor {i j : Nat} (hle : low ≤ high) (hhigh : high < code.length)
    (hi : ¬ (low ≤ i ∧ i ≤ high)) (hj : ¬ (low ≤ j ∧ j ≤ high)) :
    (code.removeBetween low high).Jumps (survivor low high i) (survivor low high j) ↔
      code.Jumps i j := by
  simp only [Jumps, getElem?_survivor hle hhigh hi, getElem?_survivor hle hhigh hj]

/-! ## Labels of the range and of the rest -/

section
variable {labelsOf : Instruction → List Label} {l : Label}

/-- The labels of the code are those of the range and those of the rest. -/
theorem flatMap_removeBetween_perm (hle : low ≤ high) (hhigh : high < code.length) :
    (code.flatMap labelsOf).Perm
      ((code.slice low high).flatMap labelsOf ++
        (code.removeBetween low high).flatMap labelsOf) := by
  have hperm : (((code.removeBetween low high).insertAt low (code.slice low high)).flatMap
      labelsOf).Perm _ := flatMap_insertAt_perm low (code.slice low high)
  rwa [insertAt_removeBetween hle hhigh] at hperm

/-- The labels of the range are those of the instructions at its indices. -/
theorem mem_flatMap_slice :
    l ∈ (code.slice low high).flatMap labelsOf ↔
      ∃ k i, (low ≤ k ∧ k ≤ high) ∧ code[k]? = some i ∧ l ∈ labelsOf i := by
  have hget : ∀ k, (code.slice low high)[k]? = if low + k ≤ high then code[low + k]? else none := by
    intro k
    simp only [slice, List.getElem?_drop, List.getElem?_take, Nat.lt_succ_iff]
  rw [List.mem_flatMap]
  constructor
  · rintro ⟨i, hi, hl⟩
    obtain ⟨k, hk⟩ := List.mem_iff_getElem?.1 hi
    rw [hget] at hk
    split at hk
    · exact ⟨low + k, i, by omega, hk, hl⟩
    · cases hk
  · rintro ⟨k, i, hk, hi, hl⟩
    refine ⟨i, List.mem_iff_getElem?.2 ⟨k - low, ?_⟩, hl⟩
    rw [hget, Nat.add_sub_cancel' hk.1, if_pos hk.2, hi]

/-- The labels of the rest are those of the instructions at the indices outside the range. -/
theorem mem_flatMap_removeBetween (hle : low ≤ high) (hhigh : high < code.length) :
    l ∈ (code.removeBetween low high).flatMap labelsOf ↔
      ∃ k i, ¬ (low ≤ k ∧ k ≤ high) ∧ code[k]? = some i ∧ l ∈ labelsOf i := by
  rw [List.mem_flatMap]
  constructor
  · rintro ⟨i, hi, hl⟩
    obtain ⟨k, hk⟩ := List.mem_iff_getElem?.1 hi
    obtain ⟨k, hout, rfl⟩ := exists_survivor_eq k hle
    exact ⟨k, i, hout, (getElem?_survivor hle hhigh hout).symm.trans hk, hl⟩
  · rintro ⟨k, i, hk, hi, hl⟩
    have hget := (getElem?_survivor hle hhigh hk).trans hi
    exact ⟨i, List.mem_of_getElem? hget, hl⟩

end

/-! ## Faults of the rest -/

/-- The instructions outside the range keep their tags, which stay distinct. -/
theorem WellLabelled.distinct_removeBetween (h : code.WellLabelled) (hle : low ≤ high)
    (hhigh : high < code.length) : (code.removeBetween low high).tags.Nodup := by
  have hperm : code.tags.Perm ((code.slice low high).tags ++ (code.removeBetween low high).tags) :=
    flatMap_removeBetween_perm hle hhigh
  exact (List.nodup_append.1 (hperm.nodup_iff.1 h.distinct)).2.1

/-- The labels that dangle after the removal are those that tie a branch outside the range to an
instruction in it. -/
theorem WellLabelled.mem_dangling_removeBetween (h : code.WellLabelled) (hle : low ≤ high)
    (hhigh : high < code.length) {l : Label} :
    l ∈ (code.removeBetween low high).dangling ↔ code.TiesInto low high l := by
  have hperm : code.tags.Perm ((code.slice low high).tags ++ (code.removeBetween low high).tags) :=
    flatMap_removeBetween_perm hle hhigh
  have htargets : l ∈ (code.removeBetween low high).targets ↔ _ :=
    mem_flatMap_removeBetween hle hhigh
  rw [mem_dangling, htargets]
  constructor
  · rintro ⟨htarget, hfree⟩
    refine ⟨mem_flatMap_slice.1 ?_, htarget⟩
    -- a target of the code tags an instruction, and none outside the range
    obtain ⟨k, i, -, hi, hl⟩ := htarget
    have htag := h.tagged l (List.mem_flatMap.2 ⟨i, List.mem_of_getElem? hi, hl⟩)
    exact (List.mem_append.1 (hperm.mem_iff.1 htag)).resolve_right hfree
  · rintro ⟨htag, htarget⟩
    refine ⟨htarget, fun hrest => ?_⟩
    have hslice : l ∈ (code.slice low high).tags := mem_flatMap_slice.2 htag
    exact (List.nodup_append.1 (hperm.nodup_iff.1 h.distinct)).2.2 l hslice l hrest rfl

end

end Code

/-! ## The check after a removal -/

namespace Edit

open Code

variable {σ : Type}

/-- Removing a range from well-labelled code breaks exactly the jumps into the range. The check of
the labels fails only if there are such jumps, and then lists their labels in increasing order; the
instructions outside the range jump to each other as before. -/
theorem removeBetween_dangling (w : Workspace σ) {a b : Nat}
    (hlabels : w.cursor.checkLabels = .ok ()) (hlt : max a b < w.cursor.length) :
    let code := w.cursor.code
    let low := min a b
    let high := max a b
    ∃ w', removeBetween a b w = .ok () w' ∧
      (w'.cursor.checkLabels = .ok () ↔ ¬ ∃ l, code.TiesInto low high l) ∧
      ((∃ l, code.TiesInto low high l) →
        ∃ ls, w'.cursor.checkLabels = .error (.labels (.dangling ls)) ∧
          (ls.Pairwise fun l l' => l.id < l'.id) ∧ ∀ l, l ∈ ls ↔ code.TiesInto low high l) ∧
      ∀ i j, ¬ (low ≤ i ∧ i ≤ high) → ¬ (low ≤ j ∧ j ≤ high) →
        (w'.cursor.code.Jumps (survivor low high i) (survivor low high j) ↔ code.Jumps i j) := by
  intro code low high
  have hle : low ≤ high := Nat.le_trans (Nat.min_le_left a b) (Nat.le_max_left a b)
  have hwell : code.WellLabelled := Cursor.checkLabels_eq_ok_iff.1 hlabels
  have hdistinct := hwell.distinct_removeBetween hle hlt
  have hmem : ∀ l, l ∈ (code.removeBetween low high).dangling ↔ code.TiesInto low high l :=
    fun l => hwell.mem_dangling_removeBetween hle hlt
  refine ⟨_, removeBetween_of_lt hlt, ?_, ?_, fun i j hi hj => jumps_survivor hle hlt hi hj⟩
  · rw [Cursor.checkLabels_eq_ok_iff]
    constructor
    · rintro hrest ⟨l, hl⟩
      obtain ⟨htarget, hfree⟩ := mem_dangling.1 ((hmem l).2 hl)
      exact hfree (hrest.tagged l htarget)
    · intro hnone
      refine ⟨hdistinct, fun l hl => ?_⟩
      by_contra hfree
      exact hnone ⟨l, (hmem l).1 (mem_dangling.2 ⟨hl, hfree⟩)⟩
  · rintro ⟨l, hl⟩
    have hsome := List.ne_nil_of_mem ((hmem l).2 hl)
    have hfault := labelFault?_of_distinct hdistinct hsome
    exact ⟨_, Cursor.checkLabels_of_fault hfault, pairwise_dangling _, hmem⟩

/-- A table of three targets; the first two and the target of the last branch tag the instructions
between. -/
def tableOverTwo : Workspace Unit where
  cursor := Cursor.ofCode
    [{ opcode := .switch, operand := some (.labels [⟨3⟩, ⟨2⟩, ⟨1⟩]) },
     { opcode := .nop, labels := [⟨1⟩, ⟨5⟩] }, { opcode := .nop, labels := [⟨2⟩] },
     { Instruction.branch .br ⟨5⟩ with labels := [⟨3⟩] }]
  own := ()

/-- Without the two instructions the table loses two of its targets and the branch loses its own.
The table still goes to the branch. -/
theorem removeBetween_dangling_tableOverTwo :
    tableOverTwo.cursor.checkLabels = .ok () ∧
      ∃ w' ls, removeBetween 2 1 tableOverTwo = .ok () w' ∧
        w'.cursor.checkLabels = .error (.labels (.dangling ls)) ∧
        ⟨1⟩ ∈ ls ∧ ⟨2⟩ ∈ ls ∧ ⟨3⟩ ∉ ls ∧ ⟨5⟩ ∈ ls ∧ w'.cursor.code.Jumps 0 1 := by
  have hlabels : tableOverTwo.cursor.checkLabels = .ok () :=
    Cursor.checkLabels_eq_ok_iff.2 (by decide)
  obtain ⟨w', hrun, -, hdangling, hjumps⟩ :=
    removeBetween_dangling tableOverTwo (a := 2) (b := 1) hlabels (by decide)
  have h₁ : tableOverTwo.cursor.code.TiesInto 1 2 ⟨1⟩ :=
    ⟨⟨1, _, by decide, rfl, by decide⟩, ⟨0, _, by decide, rfl, by decide⟩⟩
  have h₂ : tableOverTwo.cursor.code.TiesInto 1 2 ⟨2⟩ :=
    ⟨⟨2, _, by decide, rfl, by decide⟩, ⟨0, _, by decide, rfl, by decide⟩⟩
  have h₅ : tableOverTwo.cursor.code.TiesInto 1 2 ⟨5⟩ :=
    ⟨⟨1, _, by decide, rfl, by decide⟩, ⟨3, _, by decide, rfl, by decide⟩⟩
  have h₃ : ¬ tableOverTwo.cursor.code.TiesInto 1 2 ⟨3⟩ := by
    rintro ⟨⟨k, i, ⟨hlow, hhigh⟩, hi, hl⟩, -⟩
    have hk : k = 1 ∨ k = 2 := by omega
    rcases hk with rfl | rfl <;> cases hi <;> exact absurd hl (by decide)
  obtain ⟨ls, hcheck, -, hmem⟩ := hdangling ⟨_, h₁⟩
  refine ⟨hlabels, w', ls, hrun, hcheck, (hmem _).2 h₁, (hmem _).2 h₂, fun h => ?_,
    (hmem _).2 h₅, ?_⟩
  · exact h₃ ((hmem _).1 h)
  · refine (hjumps 0 3 (by decide) (by decide)).2 ?_
    exact ⟨_, _, rfl, rfl, ⟨3⟩, by decide, by decide⟩

end Edit

end Weaving
