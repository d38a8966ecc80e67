import Mathlib.Data.List.Induction
import Weaving.Proofs.Change

/-!
# Matches

What a match is and which one a search finds, said without the search. `Pattern.MatchAt` gives the
indices at which patterns match in a row, and `Pattern.Captured` what a match captures: under each
name the instruction that the last pattern with the name matches (`captured_capture`). A search
visits the indices in the order of its direction (`Direction.Precedes`), one step after the other
(`Direction.indices_of_lt`), so the match that it finds precedes all others from its start on
(`Cursor.nearestMatch?_eq_some`). It goes to `Cursor.onMatch`, which is always on an instruction,
or, if there is no match, to `Cursor.offMatch`, which never is.
-/

namespace Weaving

/-! ## The order of a search -/

namespace Direction

/-- A forward search visits the indices from its start on, and none if it starts before the code. -/
theorem mem_indices_forward {start : Int} {length i : Nat} :
    i ∈ Direction.forward.indices start length ↔ 0 ≤ start ∧ start ≤ i ∧ i < length := by
  simp only [indices]
  split
  · rw [List.mem_range'_1]
    omega
  · simp only [List.not_mem_nil, false_iff]
    omega

/-- A backward search visits the indices down from its start, and none if it starts past the
code. -/
theorem mem_indices_backward {start : Int} {length i : Nat} :
    i ∈ Direction.backward.indices start length ↔ i ≤ start ∧ start < length := by
  simp only [indices]
  split
  · rw [List.mem_reverse, List.mem_range]
    omega
  · simp only [List.not_mem_nil, false_iff]
    omega

/-- A search in the direction visits the first index before the second. -/
def Precedes (i j : Nat) : Direction → Prop
  | .forward => i < j
  | .backward => j < i

/-- A search visits the indices in its order. -/
theorem pairwise_indices (direction : Direction) (start : Int) (length : Nat) :
    (direction.indices start length).Pairwise fun i j => direction.Precedes i j := by
  cases direction with
  | forward =>
    simp only [indices]
    split
    · exact List.pairwise_lt_range'
    · exact .nil
  | backward =>
    simp only [indices]
    split
    · exact List.pairwise_reverse.2 List.pairwise_lt_range
    · exact .nil

/-- The offset of one step in the direction. -/
def step : Direction → Int
  | .forward => 1
  | .backward => -1

/-- A search from inside the code visits the start, and then what a search from the next step
visits. -/
theorem indices_of_lt (direction : Direction) {p length : Nat} (h : p < length) :
    direction.indices p length = p :: direction.indices (p + direction.step) length := by
  cases direction with
  | forward =>
    have hnext : (p : Int) + forward.step = (p + 1 : Nat) := rfl
    have hcount : length - p = length - (p + 1) + 1 := by omega
    rw [hnext]
    simp only [indices]
    rw [if_pos (by omega), if_pos (by omega), Int.toNat_natCast, Int.toNat_natCast, hcount,
      List.range'_succ]
  | backward =>
    simp only [indices]
    rw [if_pos (by omega), Int.toNat_natCast, List.range_succ, List.reverse_append]
    cases p with
    | zero => rfl
    | succ p =>
      have hnext : ((p + 1 : Nat) : Int) + backward.step = p := by
        simp only [step]
        omega
      rw [hnext, if_pos (by omega), Int.toNat_natCast]
      rfl

/-- A search from outside the code visits nothing. -/
theorem indices_of_outside (direction : Direction) {p : Int} {length : Nat}
    (h : ¬ (0 ≤ p ∧ p < length)) : direction.indices p length = [] := by
  refine List.eq_nil_iff_forall_not_mem.2 fun i hi => h ?_
  cases direction with
  | forward =>
    obtain ⟨hlow, hle, hlt⟩ := mem_indices_forward.1 hi
    omega
  | backward =>
    obtain ⟨hle, hlt⟩ := mem_indices_backward.1 hi
    omega

end Direction

/-- A search from inside the code finds the start, or what a search from the next step finds. -/
theorem Cursor.nearest?_of_lt {c : Cursor} (direction : Direction) {accepts : Nat → Bool} {p : Nat}
    (h : p < c.length) :
    c.nearest? direction p accepts =
      if accepts p then some p else c.nearest? direction (p + direction.step) accepts := by
  rw [nearest?, direction.indices_of_lt h, List.find?_cons]
  cases accepts p <;> rfl

/-- What a search finds is accepted, and precedes all else that is. -/
theorem Cursor.nearest?_eq_some {c : Cursor} {direction : Direction} {start : Int}
    {accepts : Nat → Bool} {i : Nat} (h : c.nearest? direction start accepts = some i) :
    i ∈ direction.indices start c.length ∧ accepts i = true ∧
      ∀ j ∈ direction.indices start c.length, accepts j = true →
        j = i ∨ direction.Precedes i j := by
  refine ⟨List.mem_of_find?_eq_some h, List.find?_some h, fun j hj haccepts => ?_⟩
  obtain ⟨-, before, after, hsplit, hbefore⟩ := List.find?_eq_some_iff_append.1 h
  have horder := direction.pairwise_indices start c.length
  rw [hsplit] at hj horder
  rcases List.mem_append.1 hj with hj | hj
  · have hrefused := hbefore j hj
    simp [haccepts] at hrefused
  · rcases List.mem_cons.1 hj with rfl | hj
    · exact .inl rfl
    · exact .inr ((List.pairwise_cons.1 (List.pairwise_append.1 horder).2.1).1 j hj)

/-! ## Matches in a row -/

namespace Pattern

/-- The patterns match the instructions from the index on, one each. -/
structure MatchAt (patterns : List Pattern) (code : Code) (i : Nat) : Prop where
  lt : i < code.length
  fits : i + patterns.length ≤ code.length
  each : ∀ (k : Nat) (p : Pattern), patterns[k]? = some p → p.matchesAt code (i + k) = true

/-- Patterns match in a row exactly if each matches the instruction at its own place. -/
theorem matchAll_iff {patterns : List Pattern} {code : Code} {i : Nat} :
    matchAll patterns code i = true ↔
      ∀ (k : Nat) (p : Pattern), patterns[k]? = some p → p.matchesAt code (i + k) = true := by
  induction patterns generalizing i with
  | nil => simp [matchAll]
  | cons p rest ih =>
    rw [matchAll, Bool.and_eq_true, ih]
    constructor
    · rintro ⟨hp, hrest⟩ k p' hk
      cases k with
      | zero =>
        cases hk
        exact hp
      | succ k =>
        have hk := hrest k p' hk
        rwa [Nat.add_right_comm] at hk
    · intro h
      refine ⟨h 0 p rfl, fun k p' hk => ?_⟩
      have hk := h (k + 1) p' hk
      rwa [← Nat.add_assoc, Nat.add_right_comm] at hk

/-- Matching in a row is decided by the computation: patterns that match fit into the code. -/
theorem matchAt_iff {patterns : List Pattern} {code : Code} {i : Nat} (hi : i < code.length) :
    MatchAt patterns code i ↔ matchAll patterns code i = true := by
  constructor
  · intro h
    exact matchAll_iff.2 h.each
  · intro h
    exact ⟨hi, add_length_le_of_matchAll h (Nat.le_of_lt hi), matchAll_iff.1 h⟩

/-! ## Captures -/

/-- The pattern at index `k` is the last one with the name. -/
def LastNamed (patterns : List Pattern) (name : String) (k : Nat) : Prop :=
  (∃ p, patterns[k]? = some p ∧ p.name = some name) ∧
    ∀ (k' : Nat) (p' : Pattern), patterns[k']? = some p' → p'.name = some name → k' ≤ k

/-- Where the patterns match from the index on, the captures hold under each name the instruction
that the last pattern with the name matches, and nothing else. -/
def Captured (patterns : List Pattern) (code : Code) (i : Nat) (captures : Captures) : Prop :=
  ∀ (name : String) (x : Instruction), captures.get? name = some x ↔
    ∃ k, LastNamed patterns name k ∧ code[i + k]? = some x

end Pattern

namespace Captures

/-- The first entry under a name counts. -/
theorem get?_cons (captures : Captures) (name name' : String) (x : Instruction) :
    get? ((name, x) :: captures) name' = if name' = name then some x else captures.get? name' := by
  simp only [get?, List.lookup_cons]
  split
  · next h => rw [if_pos (by simpa using h)]
  · next h => rw [if_neg (by simpa using h)]

/-- A new capture takes the place of the old one under its name, and no other. -/
theorem get?_insert (captures : Captures) (name name' : String) (x : Instruction) :
    (captures.insert name x).get? name' = if name' = name then some x else captures.get? name' := by
  induction captures with
  | nil => exact get?_cons [] name name' x
  | cons entry rest ih =>
    obtain ⟨n, y⟩ := entry
    by_cases hn : n = name
    · have hdrop : insert ((n, y) :: rest) name x = insert rest name x := by simp [insert, hn]
      rw [hdrop, ih, get?_cons]
      split
      · rfl
      · next h => rw [if_neg (hn ▸ h)]
    · have hkeep : insert ((n, y) :: rest) name x = (n, y) :: insert rest name x := by
        simp [insert, hn]
      rw [hkeep, get?_cons, get?_cons, ih]
      split
      · next h => rw [if_neg (h ▸ hn)]
      · rfl

end Captures

namespace Pattern

/-- The last pattern captures last. -/
theorem capture_concat (patterns : List Pattern) (p : Pattern) (code : Code) (i : Nat)
    (captures : Captures) :
    capture (patterns ++ [p]) code i captures =
      capture [p] code (i + patterns.length) (capture patterns code i captures) := by
  induction patterns generalizing i captures with
  | nil => rfl
  | cons q rest ih =>
    have hindex : i + (q :: rest).length = i + 1 + rest.length := by
      rw [List.length_cons]
      omega
    rw [hindex, List.cons_append]
    exact ih (i + 1) _

/-- A pattern of the longer list is one of the shorter or the last. -/
theorem getElem?_concat_cases {patterns : List Pattern} {p q : Pattern} {k : Nat}
    (h : (patterns ++ [p])[k]? = some q) :
    patterns[k]? = some q ∨ k = patterns.length ∧ q = p := by
  rw [List.getElem?_append] at h
  split at h
  · exact .inl h
  · obtain ⟨hlt, hq⟩ := List.getElem?_eq_some_iff.1 h
    simp only [List.length_singleton, List.getElem_singleton] at hlt hq
    exact .inr ⟨by omega, hq.symm⟩

/-- With one more pattern the last one with its name is that pattern; the others stay. -/
theorem lastNamed_concat_iff {patterns : List Pattern} {p : Pattern} {name : String} {k : Nat} :
    LastNamed (patterns ++ [p]) name k ↔
      if p.name = some name then k = patterns.length else LastNamed patterns name k := by
  have hlast : (patterns ++ [p])[patterns.length]? = some p := List.getElem?_concat_length
  have hold : ∀ {k q}, patterns[k]? = some q → (patterns ++ [p])[k]? = some q := fun h =>
    (List.getElem?_append_left (List.getElem?_eq_some_iff.1 h).1).trans h
  split
  · next hname =>
    constructor
    · rintro ⟨⟨q, hk, -⟩, hmax⟩
      have hle := hmax _ p hlast hname
      have hlt := (List.getElem?_eq_some_iff.1 hk).1
      rw [List.length_append, List.length_singleton] at hlt
      omega
    · rintro rfl
      refine ⟨⟨p, hlast, hname⟩, fun k' p' hk' _ => ?_⟩
      have hlt := (List.getElem?_eq_some_iff.1 hk').1
      rw [List.length_append, List.length_singleton] at hlt
      omega
  · next hname =>
    constructor
    · rintro ⟨⟨q, hk, hq⟩, hmax⟩
      rcases getElem?_concat_cases hk with hk | ⟨-, rfl⟩
      · exact ⟨⟨q, hk, hq⟩, fun k' p' hk' => hmax k' p' (hold hk')⟩
      · exact absurd hq hname
    · rintro ⟨⟨q, hk, hq⟩, hmax⟩
      refine ⟨⟨q, hold hk, hq⟩, fun k' p' hk' hp' => ?_⟩
      rcases getElem?_concat_cases hk' with hk' | ⟨-, rfl⟩
      · exact hmax k' p' hk' hp'
      · exact absurd hp' hname

/-- A match captures what it should: under each name the instruction that the last pattern with the
name matches. -/
theorem captured_capture {patterns : List Pattern} {code : Code} {i : Nat}
    (hfits : i + patterns.length ≤ code.length) :
    Captured patterns code i (capture patterns code i []) := by
  -- the first pattern captures first, and a later one of its name overwrites what it captured
  induction patterns using List.reverseRecOn with
  | nil =>
    intro name x
    simp [capture, Captures.get?, LastNamed]
  | append_singleton rest p ih =>
    rw [List.length_append, List.length_singleton] at hfits
    obtain ⟨y, hy⟩ : ∃ y, code[i + rest.length]? = some y :=
      ⟨_, List.getElem?_eq_getElem (by omega)⟩
    intro name x
    have hget : (capture (rest ++ [p]) code i []).get? name =
        if p.name = some name then some y else (capture rest code i []).get? name := by
      rw [capture_concat, capture, capture, hy]
      cases p.name with
      | none => rfl
      | some n =>
        rw [Captures.get?_insert]
        simp only [Option.some.injEq, eq_comm]
    rw [hget]
    simp only [lastNamed_concat_iff]
    split
    · simp [hy]
    · exact ih (by omega) name x

end Pattern

/-! ## Where searches for patterns go -/

namespace Cursor

/-- The cursor on a match at the index. -/
def onMatch (c : Cursor) (q : Query) (i : Nat) : Cursor :=
  { c with
    position := (i + q.offset : Nat)
    captures := Pattern.capture q.patterns c.code i []
    failure := none }

/-- The cursor after a search from the start that found no match. -/
def offMatch (c : Cursor) (q : Query) (start : Int) : Cursor :=
  { c with
    position := q.direction.sentinel c.length
    captures := []
    failure := some (.sequence q.patterns q.direction start) }

section
variable {c : Cursor} {q : Query} {start : Int} {i : Nat}

/-- A search that finds a match ends on it. -/
theorem findFrom_of_some (h : c.nearestMatch? q.direction start q.patterns = some i) :
    c.findFrom start q = c.onMatch q i := by
  rw [findFrom, h]
  rfl

/-- A search that finds no match ends off the code. -/
theorem findFrom_of_none (h : c.nearestMatch? q.direction start q.patterns = none) :
    c.findFrom start q = c.offMatch q start := by
  rw [findFrom, h]
  rfl

/-- The match that a search finds precedes all others from its start on. -/
theorem nearestMatch?_eq_some {direction : Direction} {patterns : List Pattern}
    (h : c.nearestMatch? direction start patterns = some i) :
    i ∈ direction.indices start c.length ∧ Pattern.MatchAt patterns c.code i ∧
      ∀ j ∈ direction.indices start c.length, Pattern.MatchAt patterns c.code j →
        j = i ∨ direction.Precedes i j := by
  obtain ⟨hi, hmatch, hfirst⟩ := nearest?_eq_some h
  refine ⟨hi, (Pattern.matchAt_iff (Direction.lt_of_mem_indices hi)).2 hmatch, fun j hj hj' => ?_⟩
  exact hfirst j hj ((Pattern.matchAt_iff hj'.lt).1 hj')

/-- Where a search finds nothing there is no match from its start on. -/
theorem nearestMatch?_eq_none {direction : Direction} {patterns : List Pattern}
    (h : c.nearestMatch? direction start patterns = none) :
    ∀ j ∈ direction.indices start c.length, ¬ Pattern.MatchAt patterns c.code j := by
  intro j hj hmatch
  exact List.find?_eq_none.1 h j hj ((Pattern.matchAt_iff hmatch.lt).1 hmatch)

/-- A cursor is valid exactly if it is on an instruction. -/
theorem isValid_iff : c.isValid = true ↔ 0 ≤ c.position ∧ c.position < c.length := by
  rw [isValid, Bool.and_eq_true, decide_eq_true_iff, decide_eq_true_iff]

/-- A match is gone to at an instruction. -/
theorem isValid_onMatch (h : Pattern.MatchAt q.patterns c.code i) :
    (c.onMatch q i).isValid = true := by
  obtain ⟨hlt, hfits, -⟩ := h
  have hoffset : i + q.offset < c.code.length := by
    unfold Query.offset
    split <;> omega
  exact isValid_iff.2 ⟨Int.natCast_nonneg _, Int.ofNat_lt.2 hoffset⟩

/-- A search that finds nothing ends on no instruction. -/
theorem isValid_offMatch : (c.offMatch q start).isValid = false := by
  refine Bool.eq_false_iff.2 fun hvalid => ?_
  obtain ⟨hlow, hhigh⟩ := isValid_iff.1 hvalid
  change 0 ≤ q.direction.sentinel c.length at hlow
  change q.direction.sentinel c.length < c.length at hhigh
  cases hdirection : q.direction with
  | forward =>
    rw [hdirection, Direction.sentinel] at hhigh
    exact Int.lt_irrefl _ hhigh
  | backward =>
    rw [hdirection, Direction.sentinel] at hlow
    exact absurd hlow (by decide)

/-- A search ends on an instruction exactly if it finds a match. -/
theorem isValid_findFrom (c : Cursor) (start : Int) (q : Query) :
    (c.findFrom start q).isValid = (c.nearestMatch? q.direction start q.patterns).isSome := by
  cases h : c.nearestMatch? q.direction start q.patterns with
  | none =>
    rw [findFrom_of_none h, isValid_offMatch]
    rfl
  | some i =>
    rw [findFrom_of_some h, isValid_onMatch (nearestMatch?_eq_some h).2.1]
    rfl

end

end Cursor

end Weaving
