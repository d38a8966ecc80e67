import Weaving.Proofs.Match
import Weaving.Proofs.Places
import Weaving.Proofs.Removal
import Weaving.Proofs.Run

/-!
# Ranges of instructions

A range is read by `Cursor.between?` and removed by `Edit.removeBetween`, or by offsets from the
position. The two agree on which ranges there are, and what is removed is what would have been read
(`removeBetween_agrees_reading`). What becomes of the cursor is the same for all of them
(`Cursor.Loses`): it stays on its instruction, or goes to the one that followed if its own was
removed.

Instructions from the position on are removed by their number, which is a word without a sign. The
last of them is found by reading that word as one with a sign, so that a great number leads back
before the position. `removeNext_exact` says which numbers are removed, which are refused, and which
lead back to an instruction and break the contract of the removal.
-/

namespace Weaving

/-! ## The code around a range -/

namespace Code

variable {code : Code} {low high : Nat}

/-- The instruction behind the range takes the place of the first in it. -/
theorem getElem?_removeBetween_low (hle : low ≤ high) (hhigh : high < code.length) :
    (code.removeBetween low high)[low]? = code[high + 1]? := by
  have hget := getElem?_survivor hle hhigh (k := high + 1) (by omega)
  rwa [survivor, if_neg (by omega), Nat.sub_sub_self (by omega)] at hget

end Code

namespace Cursor

variable {c : Cursor}

/-! ## Reading -/

/-- A range is read exactly if its greater end is in the code, whichever end is given first. -/
theorem between?_eq_some {a b : Nat} {r : Code} :
    c.between? a b = some r ↔ max a b < c.length ∧ c.code.slice (min a b) (max a b) = r := by
  unfold between?
  split
  · next h => simp [h]
  · next h => simp [h]

/-- Whether a range can be read depends on its greater end only. -/
theorem isSome_between? {a b : Nat} : (c.between? a b).isSome = true ↔ max a b < c.length := by
  simp [Option.isSome_iff_exists, between?_eq_some]

/-- A range between offsets is the one between the indices that they lead to. -/
theorem betweenOffsets?_eq_some {x y : Int} {r : Code} :
    c.betweenOffsets? x y = some r ↔
      ∃ i j, c.indexAt? x = some i ∧ c.indexAt? y = some j ∧ c.between? i j = some r := by
  unfold betweenOffsets?
  cases c.indexAt? x with
  | none => simp
  | some i =>
    cases c.indexAt? y with
    | none => simp
    | some j => simp

/-- Between indices that offsets lead to, everything can be read. -/
theorem isSome_betweenOffsets? {x y : Int} :
    (c.betweenOffsets? x y).isSome = true ↔
      ∃ i j, c.indexAt? x = some i ∧ c.indexAt? y = some j := by
  rw [Option.isSome_iff_exists]
  constructor
  · rintro ⟨r, hr⟩
    obtain ⟨i, j, hi, hj, -⟩ := betweenOffsets?_eq_some.1 hr
    exact ⟨i, j, hi, hj⟩
  · rintro ⟨i, j, hi, hj⟩
    have hlt := Nat.max_lt.2 ⟨(add_eq_of_indexAt? hi).2, (add_eq_of_indexAt? hj).2⟩
    exact ⟨_, betweenOffsets?_eq_some.2 ⟨i, j, hi, hj, between?_eq_some.2 ⟨hlt, rfl⟩⟩⟩

/-! ## Removing -/

/-- The second cursor is the first without the instructions from index `low` to index `high`, which
are `removed`. -/
structure Loses (c c' : Cursor) (low high : Nat) (removed : Code) : Prop where
  range : low ≤ high ∧ high < c.length
  before : c.code = c.code.take low ++ removed ++ c.code.drop (high + 1)
  after : c'.code = c.code.take low ++ c.code.drop (high + 1)
  /-- Nothing but the code and the position changes. -/
  rest : c' = { c with code := c'.code, position := c'.position }
  /-- A cursor outside the range stays on its instruction. -/
  outside : ∀ k : Nat, c.position = k → ¬ (low ≤ k ∧ k ≤ high) →
    c'.position = Code.survivor low high k ∧ c'.code[Code.survivor low high k]? = c.code[k]?
  /-- The sentinel before the code stays where it is. -/
  start : c.position = -1 → c'.position = -1
  /-- The sentinel past the code goes past the code that is left. -/
  finish : c.position = c.length → c'.position = c'.length
  /-- A cursor in the range goes to the instruction that followed it. -/
  inside : low ≤ c.position → c.position ≤ high →
    c'.position = low ∧ c'.code[low]? = c.code[high + 1]?
  /-- If none followed, that is past the code. -/
  atEnd : low ≤ c.position → c.position ≤ high → high + 1 = c.length → c'.position = c'.length

variable {low high : Nat}

/-- A cursor outside the range that is cut out follows its instruction. -/
theorem position_cut_outside {k : Nat} (hposition : c.position = k) (hle : low ≤ high)
    (hk : ¬ (low ≤ k ∧ k ≤ high)) : (c.cut low high).position = Code.survivor low high k := by
  unfold cut Code.survivor
  dsimp only
  rw [hposition]
  split
  · rw [if_neg (by omega)]
    omega
  · rw [if_neg (by omega), if_pos (by omega)]

/-- A cursor in the range that is cut out goes to where the range started. -/
theorem position_cut_inside (hlow : low ≤ c.position) (hhigh : c.position ≤ high) :
    (c.cut low high).position = low := by
  unfold cut
  dsimp only
  rw [if_neg (by omega), if_pos hlow]

/-- A cut shortens the code by the length of its range. -/
theorem length_cut (hle : low ≤ high) (hhigh : high < c.length) :
    (c.cut low high).length + (high + 1 - low) = c.length :=
  Code.length_removeBetween (Nat.le_succ_of_le hle) hhigh

/-- A cut removes what could be read in its place. -/
theorem loses_cut (hle : low ≤ high) (hhigh : high < c.length) :
    c.Loses (c.cut low high) low high (c.code.slice low high) where
  range := ⟨hle, hhigh⟩
  before := (Code.take_append_slice_append_drop hle).symm
  after := rfl
  rest := rfl
  outside k hk hout := ⟨position_cut_outside hk hle hout, Code.getElem?_survivor hle hhigh hout⟩
  start h := by
    unfold cut
    dsimp only
    rw [h, if_neg (by omega), if_neg (by omega)]
  finish h := by
    have hlength := length_cut hle hhigh
    rw [position_cut_outside h hle (by omega), Code.survivor, if_neg (by omega)]
    omega
  inside hlow hhere := ⟨position_cut_inside hlow hhere, Code.getElem?_removeBetween_low hle hhigh⟩
  atEnd hlow hhere hlast := by
    have hlength := length_cut hle hhigh
    rw [position_cut_inside hlow hhere]
    omega

end Cursor

/-- An offset is in range exactly if there is an index that it leads to. -/
theorem Place.inRange_offset_iff {c : Cursor} {d : Int} :
    (Place.offset d).InRange c ↔ ∃ k, c.indexAt? d = some k := by
  constructor
  · intro h
    exact ⟨_, if_pos h⟩
  · rintro ⟨k, hk⟩
    obtain ⟨hposition, hlt⟩ := Cursor.add_eq_of_indexAt? hk
    unfold InRange
    omega

namespace Edit

variable {σ : Type}

/-- A range is removed exactly if its greater end is in the code. -/
theorem removeBetween_isOk_iff {w : Workspace σ} {a b : Nat} :
    (∃ w', removeBetween a b w = .ok () w') ↔ max a b < w.cursor.length := by
  have hchecks := (checks_removeBetween w a b).isOk_iff
  rwa [Unique.exists_iff, List.forall_mem_singleton] at hchecks

/-- A range between offsets is removed exactly if both lead to an instruction. -/
theorem removeBetweenOffsets_isOk_iff {w : Workspace σ} {x y : Int} :
    (∃ w', removeBetweenOffsets x y w = .ok () w') ↔
      ∃ i j, w.cursor.indexAt? x = some i ∧ w.cursor.indexAt? y = some j := by
  have hchecks := (checks_removeBetweenOffsets w x y).isOk_iff
  rw [Unique.exists_iff, List.forall_mem_cons, List.forall_mem_singleton,
    Place.inRange_offset_iff, Place.inRange_offset_iff] at hchecks
  exact hchecks.trans exists_and_exists_comm

/-- A range between offsets is the range between the indices that they lead to. -/
theorem removeBetweenOffsets_of_some {w : Workspace σ} {x y : Int} {i j : Nat}
    (hi : w.cursor.indexAt? x = some i) (hj : w.cursor.indexAt? y = some j) :
    removeBetweenOffsets x y w = removeBetween i j w := by
  rw [removeBetweenOffsets, bind_of_ok (offsetIndex_of_some hi),
    bind_of_ok (offsetIndex_of_some hj)]

/-- A range that can be read is removed, with what is said of losing it. -/
theorem removeBetween_loses {w : Workspace σ} {a b : Nat} {r : Code}
    (h : w.cursor.between? a b = some r) :
    ∃ c', removeBetween a b w = .ok () { w with cursor := c' } ∧
      w.cursor.Loses c' (min a b) (max a b) r := by
  obtain ⟨hlt, rfl⟩ := Cursor.between?_eq_some.1 h
  have hle : min a b ≤ max a b := Nat.le_trans (Nat.min_le_left a b) (Nat.le_max_left a b)
  exact ⟨_, removeBetween_of_lt hlt, Cursor.loses_cut hle hlt⟩

/-- A range can be removed exactly if it can be read, which is if it ends in the code; what is
removed is what would have been read. The same holds of a range given by offsets from the position.
-/
theorem removeBetween_agrees_reading (w : Workspace σ) :
    let c := w.cursor
    (∀ a b : Nat,
      ((∃ w', removeBetween a b w = .ok () w') ↔ (c.between? a b).isSome = true) ∧
      ((c.between? a b).isSome = true ↔ max a b < c.length) ∧
      ∀ r, c.between? a b = some r →
        ∃ c', removeBetween a b w = .ok () { w with cursor := c' } ∧
          c.Loses c' (min a b) (max a b) r) ∧
    ∀ x y : Int,
      ((∃ w', removeBetweenOffsets x y w = .ok () w') ↔ (c.betweenOffsets? x y).isSome = true) ∧
      ∀ r, c.betweenOffsets? x y = some r →
        ∃ (i j : Nat) (c' : Cursor), c.position + x = i ∧ c.position + y = j ∧
          removeBetweenOffsets x y w = .ok () { w with cursor := c' } ∧
          c.Loses c' (min i j) (max i j) r := by
  intro c
  refine ⟨fun a b => ⟨?_, Cursor.isSome_between?, fun r => removeBetween_loses⟩,
    fun x y => ⟨?_, fun r hr => ?_⟩⟩
  · rw [Cursor.isSome_between?, removeBetween_isOk_iff]
  · rw [Cursor.isSome_betweenOffsets?, removeBetweenOffsets_isOk_iff]
  · obtain ⟨i, j, hi, hj, hbetween⟩ := Cursor.betweenOffsets?_eq_some.1 hr
    obtain ⟨c', hrun, hloses⟩ := removeBetween_loses hbetween
    have hx := (Cursor.add_eq_of_indexAt? hi).1
    have hy := (Cursor.add_eq_of_indexAt? hj).1
    refine ⟨i, j, c', hx, hy, ?_, hloses⟩
    rw [removeBetweenOffsets_of_some hi hj, hrun]

end Edit

/-! ## Removing by number -/

namespace Cursor

/-- There are `n` instructions from the position on. For none of them the position does not matter.
-/
def HasNext (c : Cursor) (n : Nat) : Prop :=
  n = 0 ∨ c.isValid = true ∧ n ≤ c.remaining

instance (c : Cursor) (n : Nat) : Decidable (c.HasNext n) :=
  inferInstanceAs (Decidable (n = 0 ∨ c.isValid = true ∧ n ≤ c.remaining))

/-- The last of more instructions than there are lies outside the code, unless their number is so
great that it leads around to an instruction before the position. -/
theorem indexAt?_last {c : Cursor} {p n : Nat} (hp : c.position = p) (hlt : p < c.length)
    (hword : c.length ≤ 2 ^ 63) (hmore : c.length < p + n) (hn : n < 2 ^ 64) :
    c.indexAt? (Position.ofIndex (n - 1)) =
      if 2 ^ 64 < p + n then some (p + n - 1 - 2 ^ 64) else none := by
  rcases Nat.lt_or_ge (n - 1) (2 ^ 63) with hsmall | hgreat
  · rw [if_neg (by omega), Position.ofIndex_eq hsmall]
    exact indexAt?_of_outside (by omega)
  · rw [Position.ofIndex_of_le hgreat (by omega)]
    split
    · exact indexAt?_of_lt (by omega) (by omega)
    · exact indexAt?_of_outside (by omega)

end Cursor

namespace Edit

variable {σ : Type} {w : Workspace σ} {count : UInt64}

/-- The instructions that are there are removed. -/
theorem removeNext_of_hasNext (hword : w.cursor.length ≤ 2 ^ 63)
    (h : w.cursor.HasNext count.toNat) :
    removeNext count w = .ok ()
      { w with
        cursor :=
          { w.cursor with
            code := w.cursor.code.take w.cursor.position.toNat ++
              w.cursor.code.drop (w.cursor.position.toNat + count.toNat) } } := by
  by_cases hzero : count.toNat = 0
  · have hcount : count = 0 := UInt64.toNat_inj.1 hzero
    rw [hzero, Nat.add_zero, List.take_append_drop, removeNext, if_pos hcount]
    rfl
  · obtain ⟨hvalid, hle⟩ := h.resolve_left hzero
    obtain ⟨hlow, hhigh⟩ := Cursor.isValid_iff.1 hvalid
    unfold Cursor.remaining at hle
    have hrun := removeNext_of_le (Int.toNat_of_nonneg hlow).symm (Nat.pos_of_ne_zero hzero)
      (w := w) (by omega) (by omega)
    rwa [UInt64.ofNat_toNat, Code.removeBetween, Nat.sub_add_cancel (by omega)] at hrun

/-- Off the code nothing is removed. -/
theorem removeNext_of_invalid (hcount : count ≠ 0) (h : w.cursor.isValid = false) :
    ∃ position, removeNext count w = .error (.positionOutOfRange position w.cursor.length) w := by
  have hnone : w.cursor.indexAt? 0 = none := by
    refine Cursor.indexAt?_of_outside ?_
    rw [Int.add_zero, ← Cursor.isValid_iff, h]
    exact Bool.false_ne_true
  rw [removeNext, if_neg hcount]
  exact ⟨_, bind_of_error (offsetIndex_of_none hnone)⟩

section
variable {p : Nat}

/-- A number of instructions that ends behind the code, or before it, is refused. -/
theorem removeNext_of_outside (hcount : count ≠ 0) (hp : w.cursor.position = p)
    (hlt : p < w.cursor.length)
    (hlast : w.cursor.indexAt? (Position.ofIndex (count.toNat - 1)) = none) :
    ∃ position, removeNext count w = .error (.positionOutOfRange position w.cursor.length) w := by
  have hfirst := Cursor.indexAt?_of_lt ((Int.add_zero _).trans hp) hlt
  rw [removeNext, if_neg hcount]
  exact ⟨_, (bind_of_ok (offsetIndex_of_some hfirst)).trans
    (bind_of_error (offsetIndex_of_none hlast))⟩

/-- A number of instructions that leads back to an instruction breaks the contract. -/
theorem removeNext_of_inverted {last : Nat} (hcount : count ≠ 0) (hp : w.cursor.position = p)
    (hlt : p < w.cursor.length)
    (hlast : w.cursor.indexAt? (Position.ofIndex (count.toNat - 1)) = some last)
    (hinverted : last + 1 < p) :
    removeNext count w = .error (.invertedRange p last) w := by
  have hfirst := Cursor.indexAt?_of_lt ((Int.add_zero _).trans hp) hlt
  rw [removeNext, if_neg hcount]
  refine (bind_of_ok (offsetIndex_of_some hfirst)).trans ?_
  refine (bind_of_ok (offsetIndex_of_some hlast)).trans ?_
  rw [if_pos hinverted]
  rfl

end

/-- Where there are not as many instructions, nothing is removed. The number leads back to an
instruction exactly if its sum with the position is above `2 ^ 64`. -/
theorem removeNext_of_not_hasNext (hword : w.cursor.length ≤ 2 ^ 63)
    (h : ¬ w.cursor.HasNext count.toNat) :
    ∃ err, removeNext count w = .error err w ∧
      (err.isFatal = true ↔
        w.cursor.isValid = true ∧ 2 ^ 64 < w.cursor.position.toNat + count.toNat) ∧
      (err.isFatal = false → ∃ position, err = .positionOutOfRange position w.cursor.length) := by
  obtain ⟨hzero, hlacks⟩ := not_or.1 h
  have hcount : count ≠ 0 := fun heq => hzero (by rw [heq, UInt64.toNat_zero])
  cases hvalid : w.cursor.isValid with
  | false =>
    obtain ⟨position, hrun⟩ := removeNext_of_invalid hcount hvalid
    exact ⟨_, hrun, ⟨fun hfatal => (nomatch hfatal), fun hback => (nomatch hback.1)⟩,
      fun _ => ⟨position, rfl⟩⟩
  | true =>
    obtain ⟨hlow, hhigh⟩ := Cursor.isValid_iff.1 hvalid
    obtain ⟨p, hp⟩ := Int.eq_ofNat_of_zero_le hlow
    have hlt : p < w.cursor.length := by omega
    have hmore : w.cursor.length < p + count.toNat := by
      have hlack : ¬ count.toNat ≤ w.cursor.length - w.cursor.position.toNat :=
        fun hle => hlacks ⟨hvalid, hle⟩
      omega
    have hlast := Cursor.indexAt?_last hp hlt hword hmore count.toNat_lt
    rw [hp, Int.toNat_natCast]
    split at hlast
    · next hgreat =>
      have hinverted : p + count.toNat - 1 - 2 ^ 64 + 1 < p := by
        have := count.toNat_lt
        omega
      exact ⟨_, removeNext_of_inverted hcount hp hlt hlast hinverted,
        ⟨fun _ => ⟨rfl, hgreat⟩, fun _ => rfl⟩, fun hfatal => (nomatch hfatal)⟩
    · next hsmall =>
      obtain ⟨position, hrun⟩ := removeNext_of_outside hcount hp hlt hlast
      exact ⟨_, hrun, ⟨fun hfatal => (nomatch hfatal), fun hback => absurd hback.2 hsmall⟩,
        fun _ => ⟨position, rfl⟩⟩

/-- Instructions from the position on are removed exactly if there are as many. Otherwise everything
stays as it was. The number is then refused with a position that is out of range, unless its sum
with the position is above `2 ^ 64`: it leads back to an instruction before the position then, which
is a breach of contract. The code must have no more instructions than a word with a sign can
count. -/
theorem removeNext_exact (w : Workspace σ) (count : UInt64) (hword : w.cursor.length ≤ 2 ^ 63) :
    let c := w.cursor
    let n := count.toNat
    let p := c.position.toNat
    ((∃ w', removeNext count w = .ok () w') ↔ c.HasNext n) ∧
      (c.HasNext n → removeNext count w = .ok ()
        { w with cursor := { c with code := c.code.take p ++ c.code.drop (p + n) } }) ∧
      (¬ c.HasNext n → ∃ err, removeNext count w = .error err w ∧
        (err.isFatal = true ↔ c.isValid = true ∧ 2 ^ 64 < p + n) ∧
        (err.isFatal = false → ∃ position, err = .positionOutOfRange position c.length)) := by
  intro c n p
  refine ⟨⟨fun hok => ?_, fun h => ⟨_, removeNext_of_hasNext hword h⟩⟩,
    removeNext_of_hasNext hword, removeNext_of_not_hasNext hword⟩
  by_contra h
  obtain ⟨w', hok⟩ := hok
  obtain ⟨err, herror, -⟩ := removeNext_of_not_hasNext hword h
  rw [hok] at herror
  cases herror

/-- The cursor on the last of three instructions. -/
def onThird : Workspace Unit where
  cursor := { Cursor.ofCode [.ldnull, .pop, { opcode := .ret }] with position := 2 }
  own := ()

/-- One instruction can be removed there and two cannot, but the greatest number breaks the
contract. -/
theorem removeNext_exact_onThird :
    (∃ w', removeNext 1 onThird = .ok () w') ∧
      (∃ position, removeNext 2 onThird = .error (.positionOutOfRange position 3) onThird) ∧
      ∃ err, removeNext 0xffffffffffffffff onThird = .error err onThird ∧ err.isFatal = true := by
  have hword : onThird.cursor.length ≤ 2 ^ 63 := by decide
  refine ⟨(removeNext_exact onThird 1 hword).1.2 (by decide), ?_, ?_⟩
  · obtain ⟨err, hrun, hfatal, hposition⟩ := (removeNext_exact onThird 2 hword).2.2 (by decide)
    have hhere : err.isFatal = false := Bool.eq_false_iff.2 fun h => absurd (hfatal.1 h) (by decide)
    obtain ⟨position, rfl⟩ := hposition hhere
    exact ⟨position, hrun⟩
  · obtain ⟨err, hrun, hfatal, -⟩ :=
      (removeNext_exact onThird 0xffffffffffffffff hword).2.2 (by decide)
    exact ⟨err, hrun, hfatal.2 (by decide)⟩

/-- The greatest number leads back over two instructions, to the first. -/
theorem removeNext_greatest_onThird :
    removeNext 0xffffffffffffffff onThird = .error (.invertedRange 2 0) onThird ∧
      (Error.invertedRange 2 0).isFatal = true := ⟨rfl, rfl⟩

end Edit

end Weaving
