import Mathlib.Order.Bounds.Basic
import Weaving.Proofs.Visits

/-!
# The nearest place

Where a search ends, said without the search: at the nearest index that it looks for
(`Direction.Nearest`), which is the least one from the start on, or backward the greatest one up to
the start, and on the sentinel of its direction if there is none ahead. `Cursor.nearest?_cases`
gives the two outcomes for any test of indices. For patterns they say where the cursor lands and
what it captures (`find_nearest`). A search by a predicate looks for the same indices as one for the
pattern with the predicate, so the two end at the same place (`search_agrees_find`). The cursor gets
there by single steps too, over instructions that do not satisfy the predicate (`Cursor.Walk`).
-/

namespace Weaving

variable {σ : Type}

/-! ## Nearest indices -/

namespace Direction

/-- The index lies in the direction as seen from the start, or at the start. -/
def Ahead (start i : Nat) : Direction → Prop
  | .forward => start ≤ i
  | .backward => i ≤ start

/-- Of the indices ahead of the start that satisfy the predicate, this is the one next to it. -/
def Nearest (P : Nat → Prop) (start i : Nat) : Direction → Prop
  | .forward => IsLeast {j | start ≤ j ∧ P j} i
  | .backward => IsGreatest {j | j ≤ start ∧ P j} i

section
variable {direction : Direction} {P : Nat → Prop} {start i : Nat}

/-- A search from inside the code visits all that is ahead; from outside it visits nothing. -/
theorem mem_indices {length : Nat} :
    i ∈ direction.indices start length ↔ start < length ∧ direction.Ahead start i ∧ i < length := by
  cases direction with
  | forward =>
    rw [mem_indices_forward]
    simp only [Ahead]
    omega
  | backward =>
    rw [mem_indices_backward]
    simp only [Ahead]
    omega

/-- What precedes all others that are ahead is the nearest. -/
theorem Nearest.of_precedes (hahead : direction.Ahead start i) (hi : P i)
    (hfirst : ∀ j, direction.Ahead start j → P j → j = i ∨ direction.Precedes i j) :
    direction.Nearest P start i := by
  cases direction with
  | forward =>
    refine ⟨⟨hahead, hi⟩, ?_⟩
    rintro j ⟨hj, hPj⟩
    obtain rfl | hlt := hfirst j hj hPj
    · exact Nat.le_refl j
    · exact Nat.le_of_lt hlt
  | backward =>
    refine ⟨⟨hahead, hi⟩, ?_⟩
    rintro j ⟨hj, hPj⟩
    obtain rfl | hlt := hfirst j hj hPj
    · exact Nat.le_refl j
    · exact Nat.le_of_lt hlt

/-- The nearest is itself ahead. -/
theorem Nearest.ahead (h : direction.Nearest P start i) : direction.Ahead start i ∧ P i := by
  cases direction with
  | forward => exact h.1
  | backward => exact h.1

/-- There is one nearest at most. -/
theorem Nearest.unique {j : Nat} (hi : direction.Nearest P start i)
    (hj : direction.Nearest P start j) : i = j := by
  cases direction with
  | forward => exact IsLeast.unique hi hj
  | backward => exact IsGreatest.unique hi hj

end

end Direction

namespace Cursor

/-- Where a search starts, as an index. -/
theorem searchStart_eq (c : Cursor) : c.searchStart = (max c.position 0).toNat :=
  (Int.toNat_of_nonneg (Int.le_max_right _ _)).symm

/-- A search for the indices that satisfy a predicate finds the nearest one from inside the code,
if there is one ahead, and nothing otherwise. -/
theorem nearest?_cases (c : Cursor) (direction : Direction) (s : Nat) {accepts : Nat → Bool}
    {P : Nat → Prop} (hP : ∀ j, P j ↔ j < c.length ∧ accepts j = true) :
    (∃ i, c.nearest? direction s accepts = some i ∧ s < c.length ∧ direction.Nearest P s i) ∨
      c.nearest? direction s accepts = none ∧
        ¬ (s < c.length ∧ ∃ i, direction.Ahead s i ∧ P i) := by
  cases hfound : c.nearest? direction s accepts with
  | some i =>
    obtain ⟨hmem, haccepts, hfirst⟩ := nearest?_eq_some hfound
    obtain ⟨hs, hahead, hi⟩ := Direction.mem_indices.1 hmem
    refine .inl ⟨i, rfl, hs, .of_precedes hahead ((hP i).2 ⟨hi, haccepts⟩) ?_⟩
    intro j hj hPj
    obtain ⟨hlt, haccepts'⟩ := (hP j).1 hPj
    exact hfirst j (Direction.mem_indices.2 ⟨hs, hj, hlt⟩) haccepts'
  | none =>
    refine .inr ⟨rfl, ?_⟩
    rintro ⟨hs, i, hahead, hi⟩
    obtain ⟨hlt, haccepts⟩ := (hP i).1 hi
    exact List.find?_eq_none.1 hfound i (Direction.mem_indices.2 ⟨hs, hahead, hlt⟩) haccepts

/-! ## Searches for patterns -/

/-- A search for patterns goes to the nearest match, or off the code if there is no match ahead. -/
theorem find_cases (c : Cursor) (q : Query) :
    let s := (max c.position 0).toNat
    (∃ i, s < c.length ∧ q.direction.Nearest (Pattern.MatchAt q.patterns c.code) s i ∧
        c.find q = { c.onMatch q i with remembered := some q }) ∨
      ¬ (s < c.length ∧ ∃ i, q.direction.Ahead s i ∧ Pattern.MatchAt q.patterns c.code i) ∧
        c.find q = { c.offMatch q s with remembered := some q } := by
  intro s
  have hmatch : ∀ j, Pattern.MatchAt q.patterns c.code j ↔
      j < c.length ∧ Pattern.matchAll q.patterns c.code j = true := by
    intro j
    constructor
    · intro h
      exact ⟨h.lt, (Pattern.matchAt_iff h.lt).1 h⟩
    · rintro ⟨hlt, h⟩
      exact (Pattern.matchAt_iff hlt).2 h
  rw [find, searchStart_eq]
  obtain ⟨i, hfound, hs, hnearest⟩ | ⟨hfound, hnone⟩ := c.nearest?_cases q.direction s hmatch
  · exact .inl ⟨i, hs, hnearest, by rw [findFrom_of_some hfound]⟩
  · exact .inr ⟨hnone, by rw [findFrom_of_none hfound]⟩

/-- A search for patterns ends on an instruction exactly if it does not fail. -/
theorem isValid_find_iff (c : Cursor) (q : Query) :
    (c.find q).isValid = true ↔ (c.find q).failure = none := by
  obtain ⟨i, -, hnearest, hfind⟩ | ⟨-, hfind⟩ := c.find_cases q
  · rw [hfind]
    exact iff_of_true (isValid_onMatch hnearest.ahead.2) rfl
  · have hoff := @isValid_offMatch c q (max c.position 0).toNat
    rw [hfind]
    exact iff_of_false (Bool.eq_false_iff.1 hoff) (Option.some_ne_none _)

end Cursor

/-- A search for patterns always ends. From inside the code, with a match ahead, it goes to the
nearest one, to its first or its last instruction as asked for, and captures under each name what
the last pattern with the name matches. Otherwise it ends on the sentinel with a failure and without
captures. The code stays as it is, and the cursor is on an instruction exactly if there is no
failure. -/
theorem Edit.find_nearest (q : Query) (w : Workspace σ) :
    let c := w.cursor
    let s := (max c.position 0).toNat
    let IsMatch := Pattern.MatchAt q.patterns c.code
    ∃ w', find q w = .ok () w' ∧
      ((∃ i, s < c.length ∧ q.direction.Nearest IsMatch s i ∧
          w'.cursor.position = i + (if q.atEnd then q.patterns.length - 1 else 0 : Nat) ∧
          w'.cursor.failure = none ∧
          Pattern.Captured q.patterns c.code i w'.cursor.captures) ∨
        ¬ (s < c.length ∧ ∃ i, q.direction.Ahead s i ∧ IsMatch i) ∧
          w'.cursor.position = q.direction.sentinel c.length ∧
          w'.cursor.failure.isSome = true ∧ w'.cursor.captures = []) ∧
      w'.cursor.code = c.code ∧
      (w'.cursor.isValid = true ↔ w'.cursor.failure = none) := by
  intro c s IsMatch
  have hcursor : (w.landed (c.find q)).cursor = c.find q := rfl
  refine ⟨_, find_apply q w, ?_⟩
  rw [hcursor]
  refine ⟨?_, c.code_find q, c.isValid_find_iff q⟩
  obtain ⟨i, hs, hnearest, hfind⟩ | ⟨hnone, hfind⟩ := c.find_cases q
  · refine .inl ⟨i, hs, hnearest, ?_⟩
    rw [hfind]
    exact ⟨rfl, rfl, Pattern.captured_capture hnearest.ahead.2.fits⟩
  · refine .inr ⟨hnone, ?_⟩
    rw [hfind]
    exact ⟨rfl, rfl, rfl⟩

/-! ## Searches by a predicate -/

/-- The instruction at the index satisfies the predicate. -/
def Code.HoldsAt (code : Code) (holds : Instruction → Bool) (i : Nat) : Prop :=
  ∃ x, code[i]? = some x ∧ holds x = true

/-- The predicate can be decided at an index of the code. -/
theorem Code.holdsAt_iff {code : Code} {holds : Instruction → Bool} {i : Nat} :
    code.HoldsAt holds i ↔ i < code.length ∧ code[i]?.any holds = true := by
  constructor
  · rintro ⟨x, hx, h⟩
    obtain ⟨hlt, -⟩ := List.getElem?_eq_some_iff.1 hx
    exact ⟨hlt, by simp [hx, h]⟩
  · rintro ⟨-, h⟩
    exact (Option.any_eq_true _ _).1 h

/-- A match of one pattern that decides by a predicate is an instruction that satisfies it. -/
theorem Pattern.matchAt_predicate_iff {code : Code} {holds : Instruction → Bool} {i : Nat} :
    MatchAt [predicate holds] code i ↔ code.HoldsAt holds i := by
  constructor
  · intro h
    have heach := h.each 0 (predicate holds) rfl
    have hlt := h.lt
    refine ⟨code[i], List.getElem?_eq_getElem hlt, ?_⟩
    simpa [matchesAt, predicate, hlt] using heach
  · rintro ⟨x, hx, h⟩
    obtain ⟨hlt, -⟩ := List.getElem?_eq_some_iff.1 hx
    refine (matchAt_iff hlt).2 ?_
    simp [matchAll, matchesAt, predicate, hx, h]

namespace Cursor

/-- A search by a predicate goes to the nearest instruction that satisfies it, or off the code if
there is none ahead. It touches nothing but the position and the failure. -/
theorem search_cases (c : Cursor) (direction : Direction) (holds : Instruction → Bool) :
    let s := (max c.position 0).toNat
    (∃ i, s < c.length ∧ direction.Nearest (c.code.HoldsAt holds) s i ∧
        c.search direction holds = { c with position := i, failure := none }) ∨
      ¬ (s < c.length ∧ ∃ i, direction.Ahead s i ∧ c.code.HoldsAt holds i) ∧
        c.search direction holds =
          { c with
            position := direction.sentinel c.length
            failure := some (.instruction direction s) } := by
  intro s
  rw [search, searchStart_eq]
  obtain ⟨i, hfound, hs, hnearest⟩ | ⟨hfound, hnone⟩ :=
    c.nearest?_cases direction s fun _ => Code.holdsAt_iff
  · exact .inl ⟨i, hs, hnearest, by rw [hfound]⟩
  · exact .inr ⟨hnone, by rw [hfound]⟩

/-- A search by a predicate leaves captures and the remembered query as they are. -/
theorem search_keeps (c : Cursor) (direction : Direction) (holds : Instruction → Bool) :
    (c.search direction holds).captures = c.captures ∧
      (c.search direction holds).remembered = c.remembered := by
  unfold search
  split <;> exact ⟨rfl, rfl⟩

/-- A search by a predicate and one for the pattern with the predicate have the same nearest index,
so they end at the same place, whichever end of the match is asked for. -/
theorem search_agrees (c : Cursor) (direction : Direction) (holds : Instruction → Bool)
    (atEnd : Bool) :
    let found := c.find ⟨[.predicate holds], atEnd, direction⟩
    (c.search direction holds).position = found.position ∧
      (c.search direction holds).failure.isSome = found.failure.isSome := by
  intro found
  have hmatches : Pattern.MatchAt [.predicate holds] c.code = c.code.HoldsAt holds :=
    funext fun _ => propext Pattern.matchAt_predicate_iff
  have hoffset : Query.offset ⟨[.predicate holds], atEnd, direction⟩ = 0 := by
    cases atEnd <;> rfl
  obtain ⟨i, hs, hi, hsearch⟩ | ⟨hnone, hsearch⟩ := c.search_cases direction holds <;>
    obtain ⟨j, hs', hj, hfind⟩ | ⟨hnone', hfind⟩ :=
      c.find_cases ⟨[.predicate holds], atEnd, direction⟩
  · rw [hmatches] at hj
    obtain rfl := hi.unique hj
    have hfound : found = _ := hfind
    rw [hsearch, hfound]
    simp [onMatch, hoffset]
  · rw [hmatches] at hnone'
    exact absurd ⟨hs, i, hi.ahead⟩ hnone'
  · rw [hmatches] at hj
    exact absurd ⟨hs', j, hj.ahead⟩ hnone
  · have hfound : found = _ := hfind
    rw [hsearch, hfound]
    exact ⟨rfl, rfl⟩

/-- Single steps in the direction lead from the first cursor, over instructions that do not satisfy
the predicate, to the second, which is on one that does or on none. -/
inductive Walk (direction : Direction) (holds : Instruction → Bool) : Cursor → Cursor → Prop
  | here {c : Cursor} {x : Instruction} (hx : c.instruction? = some x) (h : holds x = true) :
      Walk direction holds c c
  | off {c : Cursor} (h : c.isValid = false) : Walk direction holds c c
  | step {c c' : Cursor} {x : Instruction} (hx : c.instruction? = some x) (h : holds x = false)
      (hrest : Walk direction holds (c.advance direction.step) c') : Walk direction holds c c'

/-- One step from inside the code is not held up by a sentinel. -/
theorem advance_step {c : Cursor} {p : Nat} (direction : Direction) (hp : c.position = p)
    (hlt : p < c.length) :
    c.advance direction.step = { c with position := p + direction.step } := by
  have hrange : -1 ≤ p + direction.step ∧ p + direction.step ≤ c.length := by
    cases direction <;> simp only [Direction.step] <;> omega
  exact advance_of_range _ (by rw [hp]) hrange.1 hrange.2

/-- A walk ends where a search from its start finds something, or off the code if it finds
nothing. -/
theorem exists_walk (direction : Direction) (holds : Instruction → Bool) (c : Cursor) :
    ∃ p, Walk direction holds c { c with position := p } ∧
      match c.nearest? direction c.position (fun k => c.code[k]?.any holds) with
      | some i => p = i
      | none => ({ c with position := p } : Cursor).isValid = false := by
  -- the induction is on the indices that the search visits: a step leaves all but the first ahead
  induction hvisits : direction.indices c.position c.length generalizing c with
  | nil =>
    have hinvalid : c.isValid = false := by
      refine Bool.eq_false_iff.2 fun hvalid => ?_
      obtain ⟨hlow, hhigh⟩ := isValid_iff.1 hvalid
      obtain ⟨p, hp⟩ := Int.eq_ofNat_of_zero_le hlow
      rw [hp, direction.indices_of_lt (by omega)] at hvisits
      cases hvisits
    refine ⟨c.position, .off hinvalid, ?_⟩
    rw [nearest?, hvisits]
    exact hinvalid
  | cons k ks ih =>
    have hinside : 0 ≤ c.position ∧ c.position < c.length := by
      by_contra houtside
      rw [direction.indices_of_outside houtside] at hvisits
      cases hvisits
    obtain ⟨p, hp⟩ := Int.eq_ofNat_of_zero_le hinside.1
    have hlt : p < c.length := by omega
    obtain ⟨x, hx⟩ : ∃ x, c.code[p]? = some x := ⟨_, List.getElem?_eq_getElem hlt⟩
    have hhere := instruction?_of_getElem? hp hx
    rw [hp, direction.indices_of_lt hlt] at hvisits
    obtain ⟨rfl, rfl⟩ := List.cons.inj hvisits
    rw [hp, nearest?_of_lt direction hlt, hx, Option.any_some]
    cases hholds : holds x with
    | true => exact ⟨c.position, .here hhere hholds, hp⟩
    | false =>
      obtain ⟨p', hwalk, hend⟩ := ih { c with position := p + direction.step } rfl
      exact ⟨p', .step hhere hholds (advance_step direction hp hlt ▸ hwalk), hend⟩

/-- A search by a predicate ends where a walk of single steps does, or on the sentinel of its
direction if the walk leads off the code. -/
theorem search_eq_walk (c : Cursor) (direction : Direction) (holds : Instruction → Bool) :
    ∃ c', Walk direction holds { c with position := c.searchStart } c' ∧
      c.search direction holds =
        if c'.isValid then { c' with failure := none }
        else
          { c' with
            position := direction.sentinel c.length
            failure := some (.instruction direction c.searchStart) } := by
  obtain ⟨p, hwalk, hend⟩ := exists_walk direction holds { c with position := c.searchStart }
  refine ⟨_, hwalk, ?_⟩
  unfold search
  change match c.nearest? direction c.searchStart (fun k => c.code[k]?.any holds) with
    | some i => p = i
    | none => ({ c with position := p } : Cursor).isValid = false at hend
  cases hfound : c.nearest? direction c.searchStart (fun k => c.code[k]?.any holds) with
  | some i =>
    rw [hfound] at hend
    obtain rfl : p = i := hend
    have hvalid : ({ c with position := (i : Int) } : Cursor).isValid = true :=
      isValid_iff.2 ⟨Int.natCast_nonneg i, Int.ofNat_lt.2 (nearest?_lt hfound)⟩
    rw [if_pos hvalid]
  | none =>
    rw [hfound] at hend
    rw [if_neg (Bool.eq_false_iff.1 hend)]

end Cursor

/-- A search by a predicate and one for the pattern with the predicate, put on either end of its
match, end at the same place and fail alike. The place is the nearest instruction that satisfies the
predicate, which is where single steps of the cursor lead, or the sentinel if there is none ahead.
Neither search changes the code, and the one by the predicate leaves the captures and the remembered
match as they were. -/
theorem Edit.search_agrees_find (direction : Direction) (holds : Instruction → Bool) (atEnd : Bool)
    (w : Workspace σ) :
    let c := w.cursor
    let s := (max c.position 0).toNat
    ∃ w₁ w₂, search direction holds w = .ok () w₁ ∧
      find ⟨[.predicate holds], atEnd, direction⟩ w = .ok () w₂ ∧
      w₁.cursor.position = w₂.cursor.position ∧
      w₁.cursor.failure.isSome = w₂.cursor.failure.isSome ∧
      ((∃ i, s < c.length ∧ direction.Nearest (c.code.HoldsAt holds) s i ∧
          w₁.cursor.position = i ∧ w₁.cursor.failure = none) ∨
        ¬ (s < c.length ∧ ∃ i, direction.Ahead s i ∧ c.code.HoldsAt holds i) ∧
          w₁.cursor.position = direction.sentinel c.length ∧ w₁.cursor.failure.isSome = true) ∧
      (∃ c', Cursor.Walk direction holds { c with position := s } c' ∧
        w₁.cursor.position = if c'.isValid then c'.position else direction.sentinel c.length) ∧
      w₁.cursor.code = c.code ∧ w₂.cursor.code = c.code ∧
      w₁.cursor.captures = c.captures ∧ w₁.cursor.remembered = c.remembered := by
  intro c s
  have hsearch : search direction holds w = .ok () (w.landed (c.search direction holds)) := by
    rw [search, bind_of_ok (cursor_apply w), land_apply]
  have hcursor : (w.landed (c.search direction holds)).cursor = c.search direction holds := rfl
  obtain ⟨hposition, hfailure⟩ := c.search_agrees direction holds atEnd
  refine ⟨_, _, hsearch, find_apply _ w, hposition, hfailure, ?_⟩
  rw [hcursor]
  refine ⟨?_, ?_, c.code_search direction holds, c.code_find _, c.search_keeps direction holds⟩
  · obtain ⟨i, hs, hnearest, heq⟩ | ⟨hnone, heq⟩ := c.search_cases direction holds
    · refine .inl ⟨i, hs, hnearest, ?_⟩
      rw [heq]
      exact ⟨rfl, rfl⟩
    · refine .inr ⟨hnone, ?_⟩
      rw [heq]
      exact ⟨rfl, rfl⟩
  · obtain ⟨c', hwalk, heq⟩ := c.search_eq_walk direction holds
    rw [c.searchStart_eq] at hwalk
    refine ⟨c', hwalk, ?_⟩
    rw [heq]
    split <;> rfl

end Weaving
