import Mathlib.Order.Bounds.Basic
import Weaving.Code

/-!
# Supplies of labels

Labels are numbered by words, and the number behind the last one is zero. A supply that does not
come to the last label hands out ever higher ones (`LabelSupply.Gives.next_le`), and what it hands
out next once some labels are skipped is the least label of the supply that is above all of them
(`LabelSupply.isLeast_pastAll`). `Code.RoomFor` says of a label that was made in some code that the
last label was not come to.
-/

namespace Weaving

namespace Label

/-- Only behind the last label the numbers start again. -/
theorem id_lt_next {l : Label} (h : l ≠ last) : l.id < l.next.id := by
  have hid : l.id ≠ last.id := fun hid => h (congrArg Label.mk hid)
  simp only [next, last] at *
  grind

/-- A label with a higher one above it is not the last, so the next label is at most that one. -/
theorem next_le_of_lt {l : Label} {n : UInt64} (h : l.id < n) : l.next.id ≤ n := by
  simp only [next]
  grind

/-- Only where there are no labels none is the highest. -/
theorem highest?_eq_none {ls : List Label} (h : highest? ls = none) : ls = [] := by
  cases ls with
  | nil => rfl
  | cons a rest => cases h

/-- The highest label is one of the labels, and none is above it. -/
theorem highest?_eq_some {ls : List Label} {m : Label} (h : highest? ls = some m) :
    m ∈ ls ∧ ∀ l ∈ ls, l.id ≤ m.id := by
  induction ls generalizing m with
  | nil => cases h
  | cons a rest ih =>
    rw [highest?, Option.some.injEq] at h
    subst h
    cases hrest : highest? rest with
    | none =>
      rw [highest?_eq_none hrest]
      exact ⟨List.mem_cons_self, List.forall_mem_singleton.2 (UInt64.le_refl _)⟩
    | some b =>
      obtain ⟨hb, hle⟩ := ih hrest
      simp only [Option.elim_some, le, decide_eq_true_eq]
      split
      · next hba =>
        refine ⟨List.mem_cons_self, List.forall_mem_cons.2 ⟨UInt64.le_refl _, fun l hl => ?_⟩⟩
        exact UInt64.le_trans (hle l hl) hba
      · next hba =>
        refine ⟨List.mem_cons_of_mem a hb, List.forall_mem_cons.2 ⟨?_, hle⟩⟩
        exact UInt64.le_of_lt (UInt64.not_le.1 hba)

end Label

namespace LabelSupply

variable {s : LabelSupply}

/-- Skipping a label that is not the last leaves the labels of the supply that are above it. -/
theorem isLeast_past {l : Label} (h : l ≠ .last) :
    IsLeast {n | s.next.id ≤ n ∧ l.id < n} (s.past l).next.id := by
  have hlt := Label.id_lt_next h
  unfold past
  split
  · next hle =>
    exact ⟨⟨UInt64.le_of_lt (UInt64.lt_of_le_of_lt hle hlt), hlt⟩,
      fun n hn => Label.next_le_of_lt hn.2⟩
  · next hle =>
    exact ⟨⟨UInt64.le_refl _, UInt64.not_le.1 hle⟩, fun n hn => hn.1⟩

/-- Skipping labels of which none is the last leaves the labels of the supply that are above all of
them. -/
theorem isLeast_pastAll {ls : List Label} (h : Label.last ∉ ls) :
    IsLeast {n | s.next.id ≤ n ∧ ∀ l ∈ ls, l.id < n} (s.pastAll ls).next.id := by
  unfold pastAll
  cases hm : Label.highest? ls with
  | none =>
    have hnil := Label.highest?_eq_none hm
    subst hnil
    exact ⟨⟨UInt64.le_refl _, by simp⟩, fun n hn => hn.1⟩
  | some m =>
    obtain ⟨hmem, hle⟩ := Label.highest?_eq_some hm
    -- to be above all labels is to be above the highest
    have hset : {n | s.next.id ≤ n ∧ ∀ l ∈ ls, l.id < n} = {n | s.next.id ≤ n ∧ m.id < n} := by
      ext n
      refine and_congr_right fun _ => ⟨fun hall => hall m hmem, fun hlt l hl => ?_⟩
      exact UInt64.lt_of_le_of_lt (hle l hl) hlt
    rw [hset]
    exact isLeast_past fun hlast => h (hlast ▸ hmem)

/-- The supply hands out the label, now or later, whatever labels are skipped in between, and does
not come behind the last label for it. -/
inductive Gives : LabelSupply → Label → Prop
  | next (s : LabelSupply) : Gives s s.take.1
  | later {s : LabelSupply} {l : Label} (room : s.next ≠ .last) (h : Gives s.take.2 l) : Gives s l
  | past {s : LabelSupply} {skipped l : Label} (room : skipped ≠ .last)
      (h : Gives (s.past skipped) l) : Gives s l

/-- A supply hands out no label below its next one. -/
theorem Gives.next_le {l : Label} (h : s.Gives l) : s.next.id ≤ l.id := by
  induction h with
  | next s => exact UInt64.le_refl _
  | later room h ih => exact UInt64.le_of_lt (UInt64.lt_of_lt_of_le (Label.id_lt_next room) ih)
  | past room h ih => exact UInt64.le_trans (isLeast_past room).1.1 ih

end LabelSupply

/-- A label was made in the code without coming behind the last label: no label of the code that
was skipped for it is the last, and neither is the label itself. -/
structure Code.RoomFor (code : Code) (l : Label) : Prop where
  skipped : Label.last ∉ code.mentioned
  made : l ≠ .last

instance (code : Code) (l : Label) : Decidable (code.RoomFor l) :=
  decidable_of_iff (Label.last ∉ code.mentioned ∧ l ≠ .last)
    ⟨fun h => ⟨h.1, h.2⟩, fun h => ⟨h.skipped, h.made⟩⟩

end Weaving
