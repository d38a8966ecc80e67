import Weaving.Edit.Require
import Weaving.Proofs.Nearest

/-!
# Guards and searches

A guard fails where the search for the same patterns would, and leaves the cursor where it is. The
two do not start at the same place: a search from before the code starts at the first instruction,
a guard refuses to start there at all. On an instruction the starts are the same, so patterns that
are required ahead are there exactly if the search ends on an instruction
(`requireFound_of_valid`), and patterns that are required right at the position are there exactly if
the search for their start does not move (`requireMatch_of_valid`). `guards_agree_find` gives the
outcome of every guard on any workspace.
-/

namespace Weaving

namespace Cursor

variable {c : Cursor}

/-- On an instruction a search starts at the position. -/
theorem searchStart_of_valid (h : c.isValid = true) : c.searchStart = c.position :=
  Int.max_eq_left (isValid_iff.1 h).1

/-- A search for patterns ends on an instruction exactly if it finds a match. -/
theorem isValid_find (c : Cursor) (q : Query) :
    (c.find q).isValid = (c.nearestMatch? q.direction c.searchStart q.patterns).isSome :=
  c.isValid_findFrom c.searchStart q

/-- The forward search for the start of a match does not move exactly if there is a match right at
the position, which is then the match that it captures. -/
theorem find_here_iff {p : Nat} (hp : c.position = p) (hlt : p < c.length)
    (patterns : List Pattern) :
    let found := c.find ⟨patterns, false, .forward⟩
    (found.position = c.position ↔ Pattern.matchAll patterns c.code p = true) ∧
      (found.position = c.position → found.captures = Pattern.capture patterns c.code p []) := by
  intro found
  have hs : (max c.position 0).toNat = p := by omega
  rw [← Pattern.matchAt_iff hlt]
  obtain ⟨i, -, hnearest, hfind⟩ | ⟨hnone, hfind⟩ := c.find_cases ⟨patterns, false, .forward⟩
  · rw [hs] at hnearest
    have hposition : found.position = i := congrArg Cursor.position hfind
    have hcaptures : found.captures = Pattern.capture patterns c.code i [] :=
      congrArg Cursor.captures hfind
    have hhere : found.position = c.position ↔ i = p := by
      rw [hposition, hp]
      exact Int.natCast_inj
    obtain ⟨⟨hle, hmatch⟩, hleast⟩ := hnearest
    refine ⟨hhere.trans ⟨?_, ?_⟩, fun h => ?_⟩
    · rintro rfl
      exact hmatch
    · intro hmatch'
      exact Nat.le_antisymm (hleast ⟨Nat.le_refl p, hmatch'⟩) hle
    · rw [hcaptures, hhere.1 h]
  · rw [hs] at hnone
    have hposition : found.position = c.length := congrArg Cursor.position hfind
    have hmoves : found.position ≠ c.position := by omega
    refine ⟨iff_of_false hmoves fun hmatch => ?_, fun h => absurd h hmoves⟩
    exact hnone ⟨hlt, p, Nat.le_refl p, hmatch⟩

end Cursor

namespace Edit

variable {σ : Type} {w : Workspace σ}

/-- On an instruction the guard lets everything through. -/
theorem requireInstruction_of_valid (explanation : String) (h : w.cursor.isValid = true) :
    requireInstruction explanation w = .ok () w := by
  rw [requireInstruction, bind_of_ok (cursor_apply w), if_pos h]
  rfl

/-- Off the code the guard fails, with the explanation and the failure of the last search. -/
theorem requireInstruction_of_invalid (explanation : String) (h : w.cursor.isValid = false) :
    requireInstruction explanation w =
      .error (.invalidCursor explanation w.cursor.failure) w := by
  rw [requireInstruction, bind_of_ok (cursor_apply w), if_neg (Bool.eq_false_iff.1 h)]
  rfl

/-- On an instruction, patterns that are required ahead are there if the search for them ends on an
instruction. -/
theorem requireFound_of_valid (explanation : String) (direction : Direction)
    (patterns : List Pattern) (atEnd : Bool) (h : w.cursor.isValid = true) :
    requireFound explanation direction patterns w =
      if (w.cursor.find ⟨patterns, atEnd, direction⟩).isValid then .ok () w
      else .error (.patternMismatch explanation w.cursor.position) w := by
  rw [requireFound, bind_of_ok (requireInstruction_of_valid explanation h),
    bind_of_ok (cursor_apply w), Cursor.isValid_find, Cursor.searchStart_of_valid h]
  cases w.cursor.nearestMatch? direction w.cursor.position patterns with
  | none => rfl
  | some i => rfl

/-- On an instruction, patterns that are required right there match if the search for the start of
a match does not move, and they capture what it captures. -/
theorem requireMatch_of_valid (explanation : String) (patterns : List Pattern)
    (h : w.cursor.isValid = true) :
    let found := w.cursor.find ⟨patterns, false, .forward⟩
    requireMatch explanation patterns w =
      if found.position = w.cursor.position then
        .ok () { w with cursor := { w.cursor with captures := found.captures } }
      else .error (.patternMismatch explanation w.cursor.position) w := by
  intro found
  obtain ⟨hlow, hhigh⟩ := Cursor.isValid_iff.1 h
  obtain ⟨p, hp⟩ := Int.eq_ofNat_of_zero_le hlow
  obtain ⟨hhere, hcaptures⟩ := Cursor.find_here_iff hp (by omega) patterns
  rw [requireMatch, bind_of_ok (requireInstruction_of_valid explanation h),
    bind_of_ok (cursor_apply w)]
  dsimp only
  rw [hp, Int.toNat_natCast, ← hp]
  split
  · next hmatch =>
    have hstays := hhere.2 hmatch
    rw [if_pos hstays, hcaptures hstays]
    rfl
  · next hmatch =>
    rw [if_neg fun hstays => hmatch (hhere.1 hstays)]
    rfl

/-- The outcome of every guard. A guard of patterns succeeds exactly if the cursor is on an
instruction and the search for the patterns, run on the same workspace, ends on an instruction, or
does not move when the patterns are required right at the position. On success only the guard at the
position changes anything: it takes over the captures of the search. No guard changes anything when
it fails, and the error is that of the cursor with its failure or, from an instruction, that of the
patterns with the position. -/
theorem guards_agree_find (explanation : String) (w : Workspace σ) :
    let c := w.cursor
    let soft (q : Query) : Cursor := ((find q).after w).cursor
    requireInstruction explanation w =
        (if c.isValid then .ok () w else .error (.invalidCursor explanation c.failure) w) ∧
      (∀ direction patterns atEnd, requireFound explanation direction patterns w =
        if c.isValid then
          if (soft ⟨patterns, atEnd, direction⟩).isValid then .ok () w
          else .error (.patternMismatch explanation c.position) w
        else .error (.invalidCursor explanation c.failure) w) ∧
      (∀ patterns, requireMatch explanation patterns w =
        if c.isValid then
          if (soft ⟨patterns, false, .forward⟩).position = c.position then
            .ok () { w with
              cursor := { c with captures := (soft ⟨patterns, false, .forward⟩).captures } }
          else .error (.patternMismatch explanation c.position) w
        else .error (.invalidCursor explanation c.failure) w) ∧
      ∀ condition, require explanation condition w =
        if condition c then .ok () w else .error (.conditionFailed explanation) w := by
  intro c soft
  have hsoft : ∀ q, soft q = c.find q := fun q =>
    congrArg Workspace.cursor (after_of_ok (find_apply q w))
  simp only [hsoft]
  refine ⟨?_, fun direction patterns atEnd => ?_, fun patterns => ?_, fun condition => ?_⟩
  · cases hvalid : c.isValid with
    | true => exact requireInstruction_of_valid explanation hvalid
    | false => exact requireInstruction_of_invalid explanation hvalid
  · cases hvalid : c.isValid with
    | true => exact requireFound_of_valid explanation direction patterns atEnd hvalid
    | false => exact bind_of_error (requireInstruction_of_invalid explanation hvalid)
  · cases hvalid : c.isValid with
    | true => exact requireMatch_of_valid explanation patterns hvalid
    | false => exact bind_of_error (requireInstruction_of_invalid explanation hvalid)
  · rw [require, bind_of_ok (cursor_apply w)]
    split <;> rfl

end Edit

end Weaving
