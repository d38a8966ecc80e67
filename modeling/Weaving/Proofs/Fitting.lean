import Weaving.Proofs.LabelCheck

/-!
# Code that fits

When instructions are inserted into well-labelled code, the check of labels goes over the whole of
the new code, on both sides of the insertion. What it finds can be told from the two parts: the tags
of the new code are those of the parts, wherever the one is inserted into the other, and so are its
targets. A fault is therefore a label on which the parts clash (`Code.Clash`) or a target of what
was inserted that is a tag of neither part (`Code.Unresolved`). Both ways of inserting give code
that passes the check exactly if there is neither, and otherwise the check names such a label, or
all of them (`Edit.insertion_checkLabels`).
-/

namespace Weaving

namespace Code

/-- The label is a tag of the instructions to be inserted, and it is a tag of the code too or tags
them twice. -/
def Clash (code more : Code) (l : Label) : Prop :=
  l ∈ more.tags ∧ (l ∈ code.tags ∨ 2 ≤ more.tags.count l)

/-- The label is a target of the instructions to be inserted, and a tag neither of them nor of the
code. -/
def Unresolved (code more : Code) (l : Label) : Prop :=
  l ∈ more.targets ∧ l ∉ code.tags ∧ l ∉ more.tags

section
variable {code more : Code} {l : Label}

/-- Inserted instructions add their tags and take none away. -/
theorem tags_insertAt_perm (code more : Code) (index : Nat) :
    (code.insertAt index more).tags.Perm (more.tags ++ code.tags) :=
  flatMap_insertAt_perm index more

/-- Inserted instructions add their targets and take none away. -/
theorem targets_insertAt_perm (code more : Code) (index : Nat) :
    (code.insertAt index more).targets.Perm (more.targets ++ code.targets) :=
  flatMap_insertAt_perm index more

/-! ## Repeated tags -/

/-- A label that occurs earlier in a list occurs twice in it. -/
theorem two_le_count_of_mem_take {ls : List Label} {n : Nat} (hn : ls[n]? = some l)
    (h : l ∈ ls.take n) : 2 ≤ ls.count l := by
  have hbefore : 0 < (ls.take n).count l := List.count_pos_iff.2 h
  have hhere : l ∈ ls.drop n := by
    rw [List.mem_iff_getElem?]
    exact ⟨0, by rwa [List.getElem?_drop]⟩
  have hafter : 0 < (ls.drop n).count l := List.count_pos_iff.2 hhere
  have hsplit : ls.count l = (ls.take n).count l + (ls.drop n).count l := by
    rw [← List.count_append, List.take_append_drop]
  omega

/-- A tag that is repeated after an insertion was repeated by it, where no tag was before. -/
theorem clash_of_two_le_count (hdistinct : code.tags.Nodup) {index : Nat}
    (h : 2 ≤ (code.insertAt index more).tags.count l) : code.Clash more l := by
  have hcount : (code.insertAt index more).tags.count l =
      more.tags.count l + code.tags.count l := by
    rw [(tags_insertAt_perm code more index).count_eq, List.count_append]
  have hone : code.tags.count l ≤ 1 := List.nodup_iff_count_le_one.1 hdistinct l
  refine ⟨List.count_pos_iff.1 (by omega), ?_⟩
  by_cases hold : l ∈ code.tags
  · exact .inl hold
  · have hzero : code.tags.count l = 0 := List.count_eq_zero.2 hold
    exact .inr (by omega)

/-- Tags are distinct after an insertion exactly if what was inserted brings distinct tags, and none
that was there. -/
theorem nodup_tags_insertAt_iff (hdistinct : code.tags.Nodup) (index : Nat) :
    (code.insertAt index more).tags.Nodup ↔
      more.tags.Nodup ∧ ∀ l ∈ more.tags, l ∉ code.tags := by
  rw [(tags_insertAt_perm code more index).nodup_iff, List.nodup_append']
  constructor
  · rintro ⟨hmore, -, hdisjoint⟩
    exact ⟨hmore, fun l hl hold => hdisjoint hl hold⟩
  · rintro ⟨hmore, hapart⟩
    exact ⟨hmore, hdistinct, fun l hl hold => hapart l hl hold⟩

/-- If the tags are not distinct after an insertion, the check reports a label of the clash. -/
theorem WellLabelled.labelFault?_insertAt_of_clash (h : code.WellLabelled) {index : Nat}
    (hrepeated : ¬ (code.insertAt index more).tags.Nodup) :
    ∃ l, code.Clash more l ∧ (code.insertAt index more).labelFault? = some (.duplicate l) := by
  obtain ⟨n, l, ⟨⟨l', hn', hearlier⟩, -⟩, hn, hfault⟩ := labelFault?_of_repeated hrepeated
  obtain rfl : l' = l := Option.some.inj (hn'.symm.trans hn)
  exact ⟨l', clash_of_two_le_count h.distinct (two_le_count_of_mem_take hn hearlier), hfault⟩

/-! ## Dangling targets -/

/-- The targets that dangle after an insertion are those of the inserted instructions that neither
part resolves; those of the code are tags of it still. -/
theorem WellLabelled.mem_dangling_insertAt_iff (h : code.WellLabelled) {index : Nat} :
    l ∈ (code.insertAt index more).dangling ↔ code.Unresolved more l := by
  rw [mem_dangling, (targets_insertAt_perm code more index).mem_iff,
    (tags_insertAt_perm code more index).mem_iff, List.mem_append, List.mem_append]
  constructor
  · rintro ⟨htarget | htarget, hfree⟩
    · exact ⟨htarget, fun hold => hfree (.inr hold), fun hnew => hfree (.inl hnew)⟩
    · exact absurd (.inr (h.tagged l htarget)) hfree
  · rintro ⟨htarget, hold, hnew⟩
    exact ⟨.inl htarget, fun htag => htag.elim hnew hold⟩

/-- Well-labelled code stays so under an insertion exactly if what is inserted fits. -/
theorem WellLabelled.insertAt_iff (h : code.WellLabelled) (index : Nat) :
    (code.insertAt index more).WellLabelled ↔
      (more.tags.Nodup ∧ ∀ l ∈ more.tags, l ∉ code.tags) ∧
        ∀ l ∈ more.targets, l ∈ code.tags ∨ l ∈ more.tags := by
  have htags := tags_insertAt_perm code more index
  have htargets := targets_insertAt_perm code more index
  constructor
  · intro hwell
    refine ⟨(nodup_tags_insertAt_iff h.distinct index).1 hwell.distinct, fun l hl => ?_⟩
    have htag := hwell.tagged l (htargets.mem_iff.2 (List.mem_append_left _ hl))
    rw [htags.mem_iff, List.mem_append] at htag
    exact htag.symm
  · rintro ⟨hapart, hresolved⟩
    refine ⟨(nodup_tags_insertAt_iff h.distinct index).2 hapart, fun l hl => ?_⟩
    rw [htargets.mem_iff, List.mem_append] at hl
    rw [htags.mem_iff, List.mem_append]
    rcases hl with hnew | hold
    · exact (hresolved l hnew).symm
    · exact .inr (h.tagged l hold)

end

end Code

namespace Edit

variable {σ : Type}

/-- Instructions inserted into code that passes the check of labels, before the position or at the
sentinel past the end, leave code that passes it exactly if their tags are distinct and none of them
tags the code, and each of their targets tags an instruction of the code or one of them. If the tags
clash, the check names a label of the clash. Otherwise it names just the targets that are not
resolved, in increasing order. It is the same for both ways of inserting. -/
theorem insertion_checkLabels (w : Workspace σ) (more : Code)
    (hchecked : w.cursor.checkLabels = .ok ())
    (hrange : 0 ≤ w.cursor.position ∧ w.cursor.position ≤ w.cursor.length) :
    let code := w.cursor.code
    let apart := more.tags.Nodup ∧ ∀ l ∈ more.tags, l ∉ code.tags
    let resolved := ∀ l ∈ more.targets, l ∈ code.tags ∨ l ∈ more.tags
    ∃ w₁ w₂, insert more w = .ok () w₁ ∧ emit more w = .ok () w₂ ∧ ∀ w' ∈ [w₁, w₂],
      (w'.cursor.checkLabels = .ok () ↔ apart ∧ resolved) ∧
      (¬ apart → ∃ l, code.Clash more l ∧
        w'.cursor.checkLabels = .error (.labels (.duplicate l))) ∧
      (apart → ¬ resolved → ∃ ls, w'.cursor.checkLabels = .error (.labels (.dangling ls)) ∧
        (ls.Pairwise fun l l' => l.id < l'.id) ∧ ∀ l, l ∈ ls ↔ code.Unresolved more l) := by
  intro code apart resolved
  have hwell : code.WellLabelled := Cursor.checkLabels_eq_ok_iff.1 hchecked
  refine ⟨_, _, insert_of_canInsert more hrange, emit_of_canInsert more hrange, ?_⟩
  intro w' hw'
  -- the check reads the code alone, and the two ways of inserting leave the same code
  have hcode : w'.cursor.code = code.insertAt w.cursor.position.toNat more := by
    simp only [List.mem_cons, List.not_mem_nil, or_false] at hw'
    rcases hw' with rfl | rfl <;> rfl
  have hdistinct : w'.cursor.code.tags.Nodup ↔ apart := by
    rw [hcode]
    exact Code.nodup_tags_insertAt_iff hwell.distinct _
  have hdangling (l : Label) : l ∈ w'.cursor.code.dangling ↔ code.Unresolved more l := by
    rw [hcode]
    exact hwell.mem_dangling_insertAt_iff
  refine ⟨?_, fun hclash => ?_, fun hapart hunresolved => ?_⟩
  · rw [Cursor.checkLabels_eq_ok_iff, hcode]
    exact hwell.insertAt_iff _
  · have hrepeated := mt hdistinct.1 hclash
    rw [hcode] at hrepeated
    obtain ⟨l, hl, hfault⟩ := hwell.labelFault?_insertAt_of_clash hrepeated
    rw [← hcode] at hfault
    exact ⟨l, hl, Cursor.checkLabels_of_fault hfault⟩
  · obtain ⟨l, hl⟩ : ∃ l, code.Unresolved more l := by
      simp only [resolved, not_forall, not_or] at hunresolved
      obtain ⟨l, htarget, hfree⟩ := hunresolved
      exact ⟨l, htarget, hfree⟩
    have hne := List.ne_nil_of_mem ((hdangling l).2 hl)
    have hfault := Code.labelFault?_of_distinct (hdistinct.2 hapart) hne
    exact ⟨_, Cursor.checkLabels_of_fault hfault, w'.cursor.code.pairwise_dangling, hdangling⟩

/-- In front of the head of a loop, whose label is 7: a branch to the head with one that jumps to it
can be inserted, another instruction with that label cannot, and branches to other labels dangle. -/
theorem insertion_checkLabels_loopHead :
    (∃ w', insert [{ Instruction.branch .br ⟨7⟩ with labels := [⟨8⟩] }, .branch .brtrue ⟨8⟩]
        loopHead = .ok () w' ∧ w'.cursor.checkLabels = .ok ()) ∧
      (∃ w', emit [{ Instruction.ldnull with labels := [⟨7⟩] }] loopHead = .ok () w' ∧
        w'.cursor.checkLabels = .error (.labels (.duplicate ⟨7⟩))) ∧
      (∃ w' ls, emit [.branch .brtrue ⟨9⟩, .branch .br ⟨8⟩, .branch .br ⟨9⟩] loopHead =
          .ok () w' ∧
        w'.cursor.checkLabels = .error (.labels (.dangling ls)) ∧ ⟨8⟩ ∈ ls ∧ ⟨9⟩ ∈ ls) := by
  have hchecked : loopHead.cursor.checkLabels = .ok () :=
    Cursor.checkLabels_eq_ok_iff.2 (by decide)
  have hrange : 0 ≤ loopHead.cursor.position ∧
      loopHead.cursor.position ≤ loopHead.cursor.length := by decide
  refine ⟨?_, ?_, ?_⟩
  · obtain ⟨w₁, w₂, hinsert, -, hall⟩ := insertion_checkLabels loopHead
      [{ Instruction.branch .br ⟨7⟩ with labels := [⟨8⟩] }, .branch .brtrue ⟨8⟩] hchecked hrange
    obtain ⟨hok, -⟩ := hall w₁ List.mem_cons_self
    exact ⟨w₁, hinsert, hok.2 (by decide)⟩
  · obtain ⟨w₁, w₂, -, hemit, hall⟩ := insertion_checkLabels loopHead
      [{ Instruction.ldnull with labels := [⟨7⟩] }] hchecked hrange
    obtain ⟨-, hclash, -⟩ := hall w₂ (by simp)
    obtain ⟨l, ⟨hl, -⟩, hfault⟩ := hclash (by decide)
    obtain rfl : l = ⟨7⟩ := List.mem_singleton.1 hl
    exact ⟨w₂, hemit, hfault⟩
  · obtain ⟨w₁, w₂, -, hemit, hall⟩ := insertion_checkLabels loopHead
      [.branch .brtrue ⟨9⟩, .branch .br ⟨8⟩, .branch .br ⟨9⟩] hchecked hrange
    obtain ⟨-, -, hdangling⟩ := hall w₂ (by simp)
    obtain ⟨ls, hfault, -, hls⟩ := hdangling (by decide) (by decide)
    exact ⟨w₂, ls, hemit, hfault, (hls ⟨8⟩).2 ⟨by decide, by decide, by decide⟩,
      (hls ⟨9⟩).2 ⟨by decide, by decide, by decide⟩⟩

end Edit

end Weaving
