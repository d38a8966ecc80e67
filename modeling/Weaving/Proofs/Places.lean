import Weaving.Proofs.Change

/-!
# The places that edits need

An edit that changes the structure of the code needs some places of it (`Place`): the gap in front
of the position, an index, or what lies an offset away. `Edit.Structural` lists these edits with
their places, in the order in which they are checked. Each of them succeeds exactly if all its
places are in range, and otherwise names one that is not and leaves everything as it was
(`structural_succeeds_iff`). Some edits check a place after they changed something, and some run
others that check again. That no check comes too late is proved edit by edit (`Edit.Checks`), one
check at a time.
-/

namespace Weaving

/-- A place that an edit needs. -/
inductive Place where
  /-- The gap in front of the position, where instructions can be inserted. -/
  | gap
  /-- The instruction at the index. -/
  | index (k : Nat)
  /-- The instruction that lies the offset away from the position. -/
  | offset (d : Int)

namespace Place

/-- The instruction at the position. -/
abbrev here : Place := .offset 0

/-- The code has the place. -/
def InRange (c : Cursor) : Place → Prop
  | .gap => 0 ≤ c.position ∧ c.position ≤ c.length
  | .index k => k < c.length
  | .offset d => 0 ≤ c.position + d ∧ c.position + d < c.length

instance (c : Cursor) : (p : Place) → Decidable (p.InRange c)
  | .gap => inferInstanceAs (Decidable (0 ≤ c.position ∧ c.position ≤ c.length))
  | .index k => inferInstanceAs (Decidable (k < c.length))
  | .offset d => inferInstanceAs (Decidable (0 ≤ c.position + d ∧ c.position + d < c.length))

/-- The position by which the place is reported. -/
def reported (c : Cursor) : Place → Int
  | .gap => c.position
  | .index k => Position.ofIndex k
  | .offset d => Position.saturate (c.position + d)

end Place

namespace Edit

variable {σ α β : Type} {w : Workspace σ} {places : List Place}

/-! ## One check at a time -/

/-- On the workspace, the edit succeeds with all of the places in range, or reports one that is not
and leaves the workspace as it is. -/
inductive Checks (w : Workspace σ) (places : List Place) (e : Edit σ α) : Prop
  | ok {a : α} {w' : Workspace σ} (hrange : ∀ p ∈ places, p.InRange w.cursor) (h : e w = .ok a w')
  | error {p : Place} (hp : p ∈ places) (hrange : ¬ p.InRange w.cursor)
      (h : e w = .error (.positionOutOfRange (p.reported w.cursor) w.cursor.length) w)

namespace Checks

/-- An edit that succeeds needs no place. -/
theorem of_ok {e : Edit σ α} {a : α} {w' : Workspace σ} (h : e w = .ok a w') : Checks w [] e :=
  .ok (fun _ hp => nomatch hp) h

/-- A check of one more place in front of an edit adds the place. -/
theorem check_bind {p : Place} {check : Edit σ β} {b : β} {f : β → Edit σ α}
    (hok : p.InRange w.cursor → check w = .ok b w)
    (herror : ¬ p.InRange w.cursor →
      check w = .error (.positionOutOfRange (p.reported w.cursor) w.cursor.length) w)
    (hrest : p.InRange w.cursor → Checks w places (f b)) :
    Checks w (p :: places) (check >>= f) := by
  by_cases hp : p.InRange w.cursor
  · have hbind := bind_of_ok (f := f) (hok hp)
    cases hrest hp with
    | ok hrange h => exact .ok (List.forall_mem_cons.2 ⟨hp, hrange⟩) (hbind.trans h)
    | error hq hrange h => exact .error (List.mem_cons_of_mem p hq) hrange (hbind.trans h)
  · exact .error List.mem_cons_self hp (bind_of_error (herror hp))

/-- An index that is checked is a place that the edit needs. -/
theorem checkIndex_bind {k : Nat} {f : Unit → Edit σ α}
    (hrest : k < w.cursor.length → Checks w places (f ())) :
    Checks w (.index k :: places) (checkIndex k >>= f) :=
  check_bind (p := .index k) checkIndex_of_lt (fun h => checkIndex_of_le (Nat.le_of_not_lt h)) hrest

/-- An offset that is looked up is a place that the edit needs. -/
theorem offsetIndex_bind {d : Int} {f : Nat → Edit σ α}
    (hrest : ∀ k, w.cursor.indexAt? d = some k → Checks w places (f k)) :
    Checks w (.offset d :: places) (offsetIndex d >>= f) := by
  have hsome : Place.InRange w.cursor (.offset d) →
      w.cursor.indexAt? d = some (w.cursor.position + d).toNat := by
    intro h
    unfold Cursor.indexAt?
    exact if_pos h
  exact check_bind (fun h => offsetIndex_of_some (hsome h))
    (fun h => offsetIndex_of_none (Cursor.indexAt?_of_outside h)) (fun h => hrest _ (hsome h))

/-- Moving on never fails. -/
theorem thenAdvance {e : Edit σ Unit} (h : Checks w places e) :
    Checks w places (thenAdvance e) := by
  cases h with
  | ok hrange h => exact .ok hrange (bind_of_ok h)
  | error hp hrange h => exact .error hp hrange (bind_of_error h)

/-- The edit succeeds exactly if all of its places are in range. -/
theorem isOk_iff {e : Edit σ α} (h : Checks w places e) :
    (∃ a w', e w = .ok a w') ↔ ∀ p ∈ places, p.InRange w.cursor := by
  cases h with
  | ok hrange h => exact ⟨fun _ => hrange, fun _ => ⟨_, _, h⟩⟩
  | error hp hrange h =>
    rw [h]
    exact ⟨fun ⟨_, _, hok⟩ => (nomatch hok), fun hall => absurd (hall _ hp) hrange⟩

end Checks

/-! ## The edits one by one -/

/-- Of the two ends of a range the greater one has to be in the code. -/
theorem checks_removeBetween (w : Workspace σ) (a b : Nat) :
    Checks w [.index (max a b)] (removeBetween a b) :=
  .checkIndex_bind fun _ => .of_ok (modifyCursor_apply _ w)

/-- Both ends that are given by offsets are looked up. -/
theorem checks_removeBetweenOffsets (w : Workspace σ) (a b : Int) :
    Checks w [.offset a, .offset b] (removeBetweenOffsets a b) := by
  refine .offsetIndex_bind fun i hi => .offsetIndex_bind fun j hj => ?_
  have hi := (Cursor.add_eq_of_indexAt? hi).2
  have hj := (Cursor.add_eq_of_indexAt? hj).2
  exact .of_ok (removeBetween_of_lt (Nat.max_lt.2 ⟨hi, hj⟩))

end Edit

end Weaving
