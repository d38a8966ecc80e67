import Mathlib.Order.Bounds.Defs
import Weaving.Proofs.Redirection

/-!
# The check of labels

What the check of labels reports, for any code. It goes through the tags in program order and
reports the first one that occurred before (`exists_of_firstRepeated?`), whatever the branch targets
are; only distinct tags are compared with the targets, and then all dangling labels are reported.
When there is nothing to report, a branch target tags one instruction and no other
(`existsUnique_tagsAt`). Code is handed out unchecked if the settings say so, and otherwise exactly
if the check succeeds (`checkLabels_exact`).
-/

namespace Weaving

/-- The label at the index occurs earlier in the list. -/
def Label.OccursEarlier (ls : List Label) (n : Nat) : Prop :=
  ∃ l, ls[n]? = some l ∧ l ∈ ls.take n

namespace Code

/-- A repeated label that is found was seen before, and none in front of it was. -/
theorem exists_of_firstRepeated? {seen ls : List Label} {l : Label}
    (h : firstRepeated? seen ls = some l) :
    ∃ n, ls[n]? = some l ∧ (l ∈ seen ∨ l ∈ ls.take n) ∧
      ∀ m < n, ∀ l', ls[m]? = some l' → l' ∉ seen ∧ l' ∉ ls.take m := by
  -- a label that was passed counts as seen, so the induction is for every list of seen labels
  induction ls generalizing seen with
  | nil => cases h
  | cons a rest ih =>
    rw [firstRepeated?] at h
    split at h
    · next ha =>
      cases h
      exact ⟨0, rfl, .inl ha, fun m hm => absurd hm (Nat.not_lt_zero m)⟩
    · next ha =>
      obtain ⟨n, hn, hearlier, hfirst⟩ := ih h
      refine ⟨n + 1, hn, ?_, fun m hm l' hl' => ?_⟩
      · rw [List.take_succ_cons, List.mem_cons]
        rw [List.mem_cons] at hearlier
        tauto
      · cases m with
        | zero =>
          cases hl'
          exact ⟨ha, by simp⟩
        | succ m =>
          obtain ⟨hseen, htaken⟩ := hfirst m (Nat.lt_of_succ_lt_succ hm) l' hl'
          rw [List.take_succ_cons, List.mem_cons]
          rw [List.mem_cons] at hseen
          tauto

/-- Where a label is repeated, the check reports the one at the first index whose label occurs
earlier. -/
theorem labelFault?_of_repeated {code : Code} (h : ¬ code.tags.Nodup) :
    ∃ n l, IsLeast {m | Label.OccursEarlier code.tags m} n ∧ code.tags[n]? = some l ∧
      code.labelFault? = some (.duplicate l) := by
  cases hrepeated : firstRepeated? [] code.tags with
  | none =>
    obtain ⟨hdistinct, -⟩ := (firstRepeated?_eq_none_iff [] code.tags).1 hrepeated
    exact absurd hdistinct h
  | some l =>
    obtain ⟨n, hn, hearlier, hfirst⟩ := exists_of_firstRepeated? hrepeated
    have htaken : l ∈ code.tags.take n := by simpa using hearlier
    refine ⟨n, l, ⟨⟨l, hn, htaken⟩, ?_⟩, hn, ?_⟩
    · rintro m ⟨l', hm, htaken'⟩
      by_contra hlt
      exact (hfirst m (Nat.lt_of_not_le hlt) l' hm).2 htaken'
    · rw [labelFault?, hrepeated]

/-- A label tags one instruction and no other where the tags are distinct. -/
theorem existsUnique_tagsAt {code : Code} (h : code.tags.Nodup) {l : Label} (hl : l ∈ code.tags) :
    ∃! k, code.TagsAt l k := by
  obtain ⟨k, hk⟩ := mem_tags_iff.1 hl
  refine ⟨k, hk, ?_⟩
  obtain ⟨-, hdisjoint⟩ := List.nodup_flatMap.1 h
  -- instructions at two indices have no tag in common, whichever of them comes first
  have hapart : ∀ {i j : Nat}, i < j → code.TagsAt l i → ¬ code.TagsAt l j := by
    rintro i j hlt ⟨x, hx, hxl⟩ ⟨y, hy, hyl⟩
    obtain ⟨hi, rfl⟩ := List.getElem?_eq_some_iff.1 hx
    obtain ⟨hj, rfl⟩ := List.getElem?_eq_some_iff.1 hy
    exact List.pairwise_iff_getElem.1 hdisjoint i j hi hj hlt hxl hyl
  intro j hj
  rcases Nat.lt_trichotomy j k with hlt | rfl | hlt
  · exact absurd hk (hapart hlt hj)
  · rfl
  · exact absurd hj (hapart hlt hk)

end Code

namespace Cursor

/-- Code is not handed out exactly if it is to be checked and the check fails. -/
theorem finish_eq_error_iff {c : Cursor} {err : Error} :
    c.finish = .error err ↔ c.settings.checkLabels = true ∧ c.checkLabels = .error err := by
  unfold finish
  cases c.settings.checkLabels with
  | false => simp
  | true =>
    cases c.checkLabels with
    | ok _ => simp [Except.map]
    | error _ => simp [Except.map]

/-- The check of labels is exact. It succeeds exactly on distinct tags among which all branch
targets are, and then each target tags one instruction. It reports the label at the first index
whose label occurs earlier, if there is one, and otherwise the dangling labels, which are the
targets that are no tags in increasing order. Finishing fails exactly if the settings ask for the
check and the check fails, with the same error, and otherwise gives the code. -/
theorem checkLabels_exact (c : Cursor) :
    let tags := c.code.tags
    let targets := c.code.targets
    (c.checkLabels = .ok () ↔ tags.Nodup ∧ ∀ l ∈ targets, l ∈ tags) ∧
      (c.checkLabels = .ok () → ∀ l ∈ targets, ∃! k, c.code.TagsAt l k) ∧
      (¬ tags.Nodup → ∃ n l, IsLeast {m | Label.OccursEarlier tags m} n ∧ tags[n]? = some l ∧
        c.checkLabels = .error (.labels (.duplicate l))) ∧
      (tags.Nodup → (∃ l ∈ targets, l ∉ tags) →
        c.checkLabels = .error (.labels (.dangling c.code.dangling))) ∧
      (c.code.dangling.Pairwise fun l l' => l.id < l'.id) ∧
      (∀ l, l ∈ c.code.dangling ↔ l ∈ targets ∧ l ∉ tags) ∧
      (∀ err, c.finish = .error err ↔
        c.settings.checkLabels = true ∧ c.checkLabels = .error err) ∧
      ((c.settings.checkLabels = true → c.checkLabels = .ok ()) → c.finish = .ok c.code) := by
  intro tags targets
  refine ⟨?_, fun h l hl => ?_, fun h => ?_, fun hdistinct hdangling => ?_,
    c.code.pairwise_dangling, fun l => Code.mem_dangling, fun err => finish_eq_error_iff,
    finish_of_checked⟩
  · rw [checkLabels_eq_ok_iff]
    exact ⟨fun h => ⟨h.distinct, h.tagged⟩, fun h => ⟨h.1, h.2⟩⟩
  · have hwell := checkLabels_eq_ok_iff.1 h
    exact Code.existsUnique_tagsAt hwell.distinct (hwell.tagged l hl)
  · obtain ⟨n, l, hleast, hn, hfault⟩ := Code.labelFault?_of_repeated h
    exact ⟨n, l, hleast, hn, checkLabels_of_fault hfault⟩
  · obtain ⟨l, htarget, hfree⟩ := hdangling
    have hmem := Code.mem_dangling.2 ⟨htarget, hfree⟩
    have hfault := Code.labelFault?_of_distinct hdistinct (List.ne_nil_of_mem hmem)
    exact checkLabels_of_fault hfault

/-- A jump table of which one target tags nothing, beside a label in the operand of an instruction
that is no branch, which tags nothing either. -/
def tableBesideToken : Cursor :=
  .ofCode
    [{ opcode := .switch, operand := some (.labels [⟨3⟩, ⟨1⟩, ⟨3⟩]) },
     { opcode := .ldtoken, operand := some (.label ⟨9⟩) }, { opcode := .nop, labels := [⟨1⟩] }]

/-- Of the labels that tag nothing only the target of the table is reported, and once. -/
theorem checkLabels_exact_tableBesideToken :
    tableBesideToken.code.targets = [⟨3⟩, ⟨1⟩, ⟨3⟩] ∧
      (∀ l, l ∈ tableBesideToken.code.dangling ↔ l = ⟨3⟩) ∧
      tableBesideToken.checkLabels =
        .error (.labels (.dangling tableBesideToken.code.dangling)) ∧
      tableBesideToken.finish =
        .error (.labels (.dangling tableBesideToken.code.dangling)) := by
  obtain ⟨-, -, -, hcheck, -, hdangling, hfinish, -⟩ := checkLabels_exact tableBesideToken
  have hreported := hcheck (by decide) ⟨⟨3⟩, by decide, by decide⟩
  refine ⟨rfl, fun l => (hdangling l).trans ⟨?_, ?_⟩, hreported, (hfinish _).2 ⟨rfl, hreported⟩⟩
  · rintro ⟨htarget, hfree⟩
    have htargets : tableBesideToken.code.targets = [⟨3⟩, ⟨1⟩, ⟨3⟩] := rfl
    have htags : tableBesideToken.code.tags = [⟨1⟩] := rfl
    rw [htargets, List.mem_cons, List.mem_cons, List.mem_singleton] at htarget
    rw [htags, List.mem_singleton] at hfree
    rcases htarget with hl | hl | hl
    · exact hl
    · exact absurd hl hfree
    · exact hl
  · rintro rfl
    decide

end Cursor

end Weaving
