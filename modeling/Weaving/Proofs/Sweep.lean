import Weaving.Proofs.Visits

/-!
# Removing all matches

To remove all matches of some patterns, an action removes the match that the cursor is on and steps
back by one (`Edit.removeMatch`), so that the search goes on with what followed the match. A
repetition of it drops the leftmost matches that do not overlap and nothing else
(`find_forEachMatch_dropsMatches`). What that leaves is said without a cursor by
`Code.dropMatches`, which walks through the code once: the instructions in front of the first match
are kept (`dropMatches_skip`), the match is dropped (`dropMatches_of_match`), and the walk goes on
behind it. It sees only the code that is still ahead, and so must the patterns
(`Pattern.IsLocal`): one that follows jumps could match differently once code behind the cursor was
removed.
-/

namespace Weaving

/-! ## Patterns that look at one instruction -/

namespace Pattern

/-- Whether the pattern matches an instruction does not depend on jumps. -/
def IsLocal (p : Pattern) : Prop :=
  match p.test with
  | .predicate _ => True
  | .constraints c => c.jumpsFrom = [] ∧ c.jumpsTo = []

/-- A pattern that does not depend on jumps sees no difference when the front of the code is
dropped. -/
theorem IsLocal.matchesAt_drop {p : Pattern} (h : p.IsLocal) (code : Code) (k j : Nat) :
    p.matchesAt (code.drop k) j = p.matchesAt code (k + j) := by
  unfold matchesAt
  rw [List.getElem?_drop]
  cases code[k + j]? with
  | none => rfl
  | some i =>
    unfold IsLocal at h
    cases htest : p.test with
    | predicate holds => rfl
    | constraints c =>
      rw [htest] at h
      simp [Constraints.allow, h.1, h.2]

/-- Patterns that look at one instruction each match in the rest of the code as they do in all of
it. -/
theorem matchAll_drop {patterns : List Pattern} (h : ∀ p ∈ patterns, p.IsLocal) (code : Code)
    (k j : Nat) : matchAll patterns (code.drop k) j = matchAll patterns code (k + j) := by
  induction patterns generalizing j with
  | nil => rfl
  | cons p rest ih =>
    obtain ⟨hp, hrest⟩ := List.forall_mem_cons.1 h
    rw [matchAll, matchAll, hp.matchesAt_drop, ih hrest, Nat.add_assoc]

end Pattern

/-! ## Code without its matches -/

namespace Code

/-- The code without the leftmost matches that do not overlap. -/
def dropMatches (patterns : List Pattern) : Code → Code
  | [] => []
  | i :: rest =>
    if Pattern.matchAll patterns (i :: rest) 0 then
      dropMatches patterns (rest.drop (patterns.length - 1))
    else
      i :: dropMatches patterns rest
termination_by code => code.length
decreasing_by
  · rw [List.length_cons, List.length_drop]
    omega
  · exact Nat.lt_succ_self rest.length

section
variable {patterns : List Pattern} {code : Code}

/-- A match at the front is dropped. -/
theorem dropMatches_of_match (hne : patterns ≠ [])
    (h : Pattern.matchAll patterns code 0 = true) :
    dropMatches patterns code = dropMatches patterns (code.drop patterns.length) := by
  cases code with
  | nil => rw [List.drop_nil]
  | cons i rest =>
    obtain ⟨n, hn⟩ := Nat.exists_eq_succ_of_ne_zero (mt List.length_eq_zero_iff.1 hne)
    rw [dropMatches, if_pos h, hn, List.drop_succ_cons, Nat.succ_sub_one]

/-- The instructions in front of the first match are kept. -/
theorem dropMatches_skip {k : Nat}
    (h : ∀ j < k, Pattern.matchAll patterns (code.drop j) 0 = false) :
    dropMatches patterns code = code.take k ++ dropMatches patterns (code.drop k) := by
  induction k generalizing code with
  | zero => rfl
  | succ k ih =>
    cases code with
    | nil => rfl
    | cons i rest =>
      have hfront : Pattern.matchAll patterns (i :: rest) 0 = false := h 0 (Nat.succ_pos k)
      have hrest : ∀ j < k, Pattern.matchAll patterns (rest.drop j) 0 = false :=
        fun j hj => h (j + 1) (Nat.succ_lt_succ hj)
      rw [dropMatches, hfront, if_neg Bool.false_ne_true, ih hrest]
      rfl

/-- The code with the matches dropped from the index on. -/
def dropMatchesFrom (patterns : List Pattern) (code : Code) (start : Nat) : Code :=
  code.take start ++ dropMatches patterns (code.drop start)

/-- Where no match starts between two indices it is the same to drop from the one or from the
other. -/
theorem dropMatchesFrom_eq {start i : Nat} (hlocal : ∀ p ∈ patterns, p.IsLocal)
    (hle : start ≤ i) (hi : i ≤ code.length)
    (hnone : ∀ j, start ≤ j → j < i → ¬ Pattern.MatchAt patterns code j) :
    dropMatchesFrom patterns code start = dropMatchesFrom patterns code i := by
  obtain ⟨k, rfl⟩ := Nat.exists_eq_add_of_le hle
  have hskip : ∀ j < k, Pattern.matchAll patterns ((code.drop start).drop j) 0 = false := by
    intro j hj
    rw [List.drop_drop, Pattern.matchAll_drop hlocal, Nat.add_zero]
    refine Bool.eq_false_iff.2 fun hmatch => hnone (start + j) (by omega) (by omega) ?_
    exact (Pattern.matchAt_iff (by omega)).2 hmatch
  unfold dropMatchesFrom
  rw [dropMatches_skip hskip, List.drop_drop, ← List.append_assoc, ← List.take_add]

/-- Where no match starts from the index on, nothing is dropped. -/
theorem dropMatchesFrom_of_none {start : Nat} (hlocal : ∀ p ∈ patterns, p.IsLocal)
    (hnone : ∀ j, start ≤ j → ¬ Pattern.MatchAt patterns code j) :
    dropMatchesFrom patterns code start = code := by
  have hend : ∀ k, code.length ≤ k → dropMatchesFrom patterns code k = code := by
    intro k hk
    rw [dropMatchesFrom, List.drop_of_length_le hk, List.take_of_length_le hk, dropMatches,
      List.append_nil]
  rcases Nat.le_total code.length start with hge | hle
  · exact hend start hge
  · rw [dropMatchesFrom_eq hlocal hle (Nat.le_refl _) fun j hj _ => hnone j hj]
    exact hend _ (Nat.le_refl _)

/-- To drop from the start of a match is to remove it and to drop from there. -/
theorem dropMatchesFrom_of_match {i : Nat} (hlocal : ∀ p ∈ patterns, p.IsLocal)
    (hne : patterns ≠ []) (hmatch : Pattern.MatchAt patterns code i) :
    dropMatchesFrom patterns code i =
      dropMatchesFrom patterns (code.removeBetween i (i + patterns.length - 1)) i := by
  have hlength := List.length_pos_iff.2 hne
  have hfront : Pattern.matchAll patterns (code.drop i) 0 = true := by
    rw [Pattern.matchAll_drop hlocal, Nat.add_zero]
    exact (Pattern.matchAt_iff hmatch.lt).1 hmatch
  have htake : (code.take i).length = i := List.length_take_of_le (Nat.le_of_lt hmatch.lt)
  unfold dropMatchesFrom removeBetween
  rw [List.take_left' htake, List.drop_left' htake, dropMatches_of_match hne hfront,
    List.drop_drop, Nat.sub_add_cancel (by omega)]

end

end Code

/-! ## The repetition -/

/-- The search forward for the starts of matches. -/
abbrev Query.forStarts (patterns : List Pattern) : Query where
  patterns := patterns
  atEnd := false
  direction := .forward

/-- A search forward goes to the first match from its start on, if there is one. -/
theorem Cursor.findFrom_forStarts (c : Cursor) (start : Nat) (patterns : List Pattern) :
    (∀ j, start ≤ j → ¬ Pattern.MatchAt patterns c.code j) ∧
        c.findFrom start (.forStarts patterns) = c.offMatch (.forStarts patterns) start ∨
      ∃ i, start ≤ i ∧ Pattern.MatchAt patterns c.code i ∧
        (∀ j, start ≤ j → j < i → ¬ Pattern.MatchAt patterns c.code j) ∧
        c.findFrom start (.forStarts patterns) = c.onMatch (.forStarts patterns) i := by
  have hmem : ∀ j, start ≤ j → Pattern.MatchAt patterns c.code j →
      j ∈ Direction.forward.indices start c.length := fun j hj hmatch =>
    Direction.mem_indices_forward.2 ⟨Int.natCast_nonneg start, Int.ofNat_le.2 hj, hmatch.lt⟩
  cases hfound : c.nearestMatch? .forward start patterns with
  | none =>
    refine .inl ⟨fun j hj hmatch => ?_, findFrom_of_none hfound⟩
    exact nearestMatch?_eq_none hfound j (hmem j hj hmatch) hmatch
  | some i =>
    obtain ⟨hi, hmatch, hnearest⟩ := nearestMatch?_eq_some hfound
    have hstart := (Direction.mem_indices_forward.1 hi).2.1
    refine .inr ⟨i, Int.ofNat_le.1 hstart, hmatch, fun j hj hlt hmatch' => ?_,
      findFrom_of_some hfound⟩
    rcases hnearest j (hmem j hj hmatch') hmatch' with rfl | hprecedes
    · exact Nat.lt_irrefl j hlt
    · exact Nat.lt_asymm hlt hprecedes

/-- A match is as long as its patterns are many. -/
theorem Pattern.MatchAt.length_removeBetween {patterns : List Pattern} {code : Code} {i : Nat}
    (h : MatchAt patterns code i) (hne : patterns ≠ []) :
    (code.removeBetween i (i + patterns.length - 1)).length + patterns.length = code.length := by
  have hlength := List.length_pos_iff.2 hne
  have hfits := h.fits
  have hle : i ≤ i + patterns.length - 1 + 1 := by omega
  have hhigh : i + patterns.length - 1 < code.length := by omega
  have hcut := Code.length_removeBetween hle hhigh
  omega

namespace Edit

variable {σ : Type} {patterns : List Pattern} {w : Workspace σ}

/-- Remove as many instructions as there are patterns, and step back by one. -/
def removeMatch (patterns : List Pattern) : Edit σ Unit := do
  removeNext (.ofNat patterns.length)
  advance (-1)

/-- On the start of a match it is the match that is removed. -/
theorem removeMatch_of_matchAt {i : Nat} (hne : patterns ≠ [])
    (hword : patterns.length ≤ w.cursor.length → patterns.length ≤ 2 ^ 63)
    (hmatch : Pattern.MatchAt patterns w.cursor.code i) (hposition : w.cursor.position = i) :
    removeMatch patterns w = .ok ()
      { w with
        cursor :=
          { w.cursor with
            code := w.cursor.code.removeBetween i (i + patterns.length - 1)
            position := i - 1 } } := by
  have hlength := List.length_pos_iff.2 hne
  have hfits : i + patterns.length ≤ w.cursor.code.length := hmatch.fits
  have hremove := removeNext_of_le hposition hlength hfits (hword (Nat.le_of_add_left_le hfits))
  have hrest : i ≤ (w.cursor.code.removeBetween i (i + patterns.length - 1)).length := by
    have hcut := hmatch.length_removeBetween hne
    omega
  have hback : Cursor.advance
      { w.cursor with code := w.cursor.code.removeBetween i (i + patterns.length - 1) } (-1) = _ :=
    Cursor.advance_of_range (i - 1) (by rw [hposition]; rfl) (by omega)
      (Int.le_trans (Int.sub_le_self _ Int.one_nonneg) (Int.ofNat_le.2 hrest))
  rw [removeMatch, bind_of_ok hremove, advance, modifyCursor_apply, hback]

/-- From where a search went, the repetition removes the matches ahead, one in each round, and ends
on the sentinel. -/
theorem exists_rounds_dropMatches (hlocal : ∀ p ∈ patterns, p.IsLocal) (hne : patterns ≠ [])
    {c : Cursor} {start : Nat} (hword : patterns.length ≤ c.length → patterns.length ≤ 2 ^ 63)
    (hw : w.cursor = c.findFrom start (.forStarts patterns)) :
    ∃ runs w₁, Rounds (.forStarts patterns) (removeMatch patterns) w runs w₁ ∧
      w₁.cursor.isValid = false ∧
      w₁.cursor.code = Code.dropMatchesFrom patterns c.code start ∧
      w₁.cursor.position = w₁.cursor.length ∧
      runs.length * patterns.length + w₁.cursor.length = c.length := by
  have hlength := List.length_pos_iff.2 hne
  -- each round removes a match, so the induction is on the length of the code
  induction hn : c.length using Nat.strongRecOn generalizing c start w with
  | ind n ih =>
    rcases c.findFrom_forStarts start patterns with ⟨hnone, hoff⟩ | ⟨i, hle, hmatch, hfirst, hon⟩
    · rw [hoff] at hw
      refine ⟨[], w, .refl w, hw ▸ Cursor.isValid_offMatch, ?_, ?_, ?_⟩
      · rw [hw]
        exact (Code.dropMatchesFrom_of_none hlocal hnone).symm
      · rw [hw]
        rfl
      · rw [hw, ← hn, List.length_nil, Nat.zero_mul, Nat.zero_add]
        rfl
    · rw [hon] at hw
      have hvalid : w.cursor.isValid = true := hw ▸ Cursor.isValid_onMatch hmatch
      have hcode : w.cursor.code = c.code := by rw [hw]; rfl
      have hposition : w.cursor.position = i := by rw [hw]; rfl
      obtain ⟨w₁, haction, hcode₁, hposition₁⟩ : ∃ w₁, removeMatch patterns w = .ok () w₁ ∧
          w₁.cursor.code = c.code.removeBetween i (i + patterns.length - 1) ∧
          w₁.cursor.position = i - 1 :=
        ⟨_, removeMatch_of_matchAt hne (by rwa [Cursor.length, hcode]) (hcode ▸ hmatch) hposition,
          by rw [← hcode], rfl⟩
      have hnext : (w₁.searchOn (.forStarts patterns)).cursor =
          w₁.cursor.findFrom i (.forStarts patterns) := by
        change w₁.cursor.findFrom (w₁.cursor.position + 1) _ = _
        rw [hposition₁, Int.sub_add_cancel]
      have hcut : w₁.cursor.length + patterns.length = n := by
        have hlengths := hmatch.length_removeBetween hne
        rw [← hcode₁] at hlengths
        change w₁.cursor.length + _ = c.length at hlengths
        omega
      obtain ⟨runs, w₂, hrounds, hend, hcode₂, hposition₂, hcount⟩ :=
        ih w₁.cursor.length (by omega) (fun hle => hword (by omega)) hnext rfl
      refine ⟨w :: runs, w₂, .round hvalid haction hrounds, hend, ?_, hposition₂, ?_⟩
      · rw [hcode₂, hcode₁, Code.dropMatchesFrom_eq hlocal hle (Nat.le_of_lt hmatch.lt) hfirst,
          Code.dropMatchesFrom_of_match hlocal hne hmatch]
      · rw [List.length_cons, Nat.succ_mul]
        omega

/-- A search for the starts of matches and then a repetition that removes each match and steps back
ends, and drops from the code ahead the leftmost matches that do not overlap. The cursor ends on the
sentinel past the code. The patterns or the instructions must be no more than a word with a sign can
count. -/
theorem find_forEachMatch_dropsMatches (w : Workspace σ) {patterns : List Pattern}
    (hne : patterns ≠ []) (hlocal : ∀ p ∈ patterns, p.IsLocal)
    (hword : min patterns.length w.cursor.length ≤ 2 ^ 63) :
    let s := (max w.cursor.position 0).toNat
    ∃ n w', (∀ rounds, n ≤ rounds →
        (do find (.forStarts patterns); forEachMatch rounds (removeMatch patterns)) w =
          .ok n w') ∧
      w'.cursor.code =
        w.cursor.code.take s ++ Code.dropMatches patterns (w.cursor.code.drop s) ∧
      w'.cursor.position = w'.cursor.length ∧
      n * patterns.length + w'.cursor.length = w.cursor.length := by
  intro s
  have hs : w.cursor.searchStart = s := (Int.toNat_of_nonneg (Int.le_max_right _ _)).symm
  have hfound : (w.landed (w.cursor.find (.forStarts patterns))).forgetting.cursor =
      w.cursor.forgetting.findFrom s (.forStarts patterns) := hs ▸ w.cursor.forgetting_find _
  obtain ⟨runs, w₁, hrounds, hend, hcode, hposition, hcount⟩ :=
    exists_rounds_dropMatches hlocal hne (c := w.cursor.forgetting)
      (fun hle => Nat.le_trans (Nat.le_of_eq (Nat.min_eq_left hle).symm) hword) hfound
  refine ⟨runs.length, w₁.repeated (.forStarts patterns) runs.length, fun rounds henough => ?_,
    hcode, hposition, hcount⟩
  rw [bind_of_ok (find_apply _ w)]
  exact hrounds.forEachMatch_of_invalid rfl hend henough

/-- The cursor inside a pair of a load and a `pop`, with a pair inside a pair and one more ahead. -/
def onNestedPairs : Workspace Unit where
  cursor :=
    { Cursor.ofCode [.ldnull, .pop, .ldnull, .ldnull, .pop, .pop, .ldnull, .pop] with
      position := 1 }
  own := ()

/-- The pair inside is removed and so is the one at the end. The pair that they leave side by side
stays, and so does the one behind the cursor. -/
theorem find_forEachMatch_dropsMatches_onNestedPairs :
    ∃ n w', (∀ rounds, n ≤ rounds →
        (do find (.forStarts [.opcode .ldnull, .opcode .pop])
            forEachMatch rounds (removeMatch [.opcode .ldnull, .opcode .pop])) onNestedPairs =
          .ok n w') ∧
      w'.cursor.code = [.ldnull, .pop, .ldnull, .pop] ∧ w'.cursor.position = 4 := by
  have hlocal : ∀ p ∈ [Pattern.opcode .ldnull, .opcode .pop], p.IsLocal := by
    simp [Pattern.IsLocal, Pattern.opcode]
  obtain ⟨n, w', hrun, hcode, hposition, -⟩ :=
    find_forEachMatch_dropsMatches onNestedPairs (by decide) hlocal (by decide)
  have hdrop : w'.cursor.code = [.ldnull, .pop, .ldnull, .pop] := by
    rw [hcode]
    change [.ldnull] ++ Code.dropMatches _ [.pop, .ldnull, .ldnull, .pop, .pop, .ldnull, .pop] = _
    simp [Code.dropMatches, Pattern.matchAll, Pattern.matchesAt, Pattern.opcode, Constraints.allow,
      Instruction.ldnull, Instruction.pop]
  exact ⟨n, w', hrun, hdrop, by rw [hposition, Cursor.length, hdrop]; rfl⟩

end Edit

end Weaving
