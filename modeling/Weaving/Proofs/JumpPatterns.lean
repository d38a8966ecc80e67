import Weaving.Proofs.LabelCheck

/-!
# Patterns that follow jumps

A pattern may say from which indices an instruction is jumped to and to which indices it jumps. The
first is decided by collecting the labels to which the instructions at the indices may go
(`Constraints.incoming`), the second by going through the tags of the instructions at the indices.
Both come to the same relation, the jumps of the code: whatever else a pattern asks for, one of the
indices that it gives must be the other end of a jump (`Constraints.allow_iff`). An index outside
the code is no end of a jump. So it is no alternative, but it is not forgotten either: a constraint
with such indices only is met by no instruction, unlike one without any. The two constraints are
converses of each other, and in well-labelled code each branch target of an instruction leads to one
index and no other (`Pattern.jumpsTo_dual_jumpsFrom`).
-/

namespace Weaving

namespace Code

variable {code : Code} {i j : Nat}

/-- A jump starts at an instruction. -/
theorem Jumps.source_lt (h : code.Jumps i j) : i < code.length := by
  obtain ⟨_, _, hi, -⟩ := h
  exact (List.getElem?_eq_some_iff.1 hi).1

/-- A jump ends at an instruction. -/
theorem Jumps.target_lt (h : code.Jumps i j) : j < code.length := by
  obtain ⟨_, _, -, hj, -⟩ := h
  exact (List.getElem?_eq_some_iff.1 hj).1

/-- In well-labelled code a branch target leads to one index and no other. -/
theorem WellLabelled.existsUnique_jumps (h : code.WellLabelled) {l : Label}
    (hl : code.TargetsAt l i) : ∃! j, code.Jumps i j ∧ code.TagsAt l j := by
  have htarget : l ∈ code.targets := by
    obtain ⟨x, hx, hl⟩ := hl
    exact List.mem_flatMap.2 ⟨x, List.mem_of_getElem? hx, hl⟩
  obtain ⟨j, hj, hunique⟩ := existsUnique_tagsAt h.distinct (h.tagged l htarget)
  exact ⟨j, ⟨jumps_iff.2 ⟨l, hl, hj⟩, hj⟩, fun j' hj' => hunique j' hj'.2⟩

end Code

namespace Constraints

variable {c : Constraints} {code : Code} {i : Instruction} {k : Nat}

/-- The constraints on the instruction itself. -/
def withoutJumps (c : Constraints) : Constraints := { c with jumpsFrom := [], jumpsTo := [] }

/-- The incoming labels are the branch targets at the indices. -/
theorem mem_incoming {l : Label} :
    l ∈ c.incoming code ↔ ∃ source ∈ c.jumpsFrom, code.TargetsAt l source := by
  unfold incoming
  rw [List.mem_flatMap]
  constructor
  · rintro ⟨x, hx, hl⟩
    obtain ⟨source, hsource, hget⟩ := List.mem_filterMap.1 hx
    exact ⟨source, hsource, x, hget, hl⟩
  · rintro ⟨source, hsource, x, hget, hl⟩
    exact ⟨x, List.mem_filterMap.2 ⟨source, hsource, hget⟩, hl⟩

/-- An incoming label tags an instruction exactly if there is a jump to it from one of the
indices. -/
theorem tagged_incoming_iff (hi : code[k]? = some i) :
    i.labels.any (· ∈ c.incoming code) = true ↔ ∃ source ∈ c.jumpsFrom, code.Jumps source k := by
  simp only [List.any_eq_true, decide_eq_true_iff, mem_incoming, Code.jumps_iff]
  constructor
  · rintro ⟨l, hl, source, hsource, htarget⟩
    exact ⟨source, hsource, l, htarget, i, hi, hl⟩
  · rintro ⟨source, hsource, l, htarget, x, hx, hl⟩
    cases hi.symm.trans hx
    exact ⟨l, hl, source, hsource, htarget⟩

/-- A target of an instruction tags one at the indices exactly if there is a jump from it to one of
them. -/
theorem branchesTo_jumpsTo_iff (hi : code[k]? = some i) :
    (c.jumpsTo.filterMap (code[·]?)).any (i.branchesTo ·) = true ↔
      ∃ target ∈ c.jumpsTo, code.Jumps k target := by
  simp only [Instruction.branchesTo, List.any_eq_true, decide_eq_true_iff, List.mem_filterMap]
  constructor
  · rintro ⟨x, ⟨target, htarget, hx⟩, l, htag, hl⟩
    exact ⟨target, htarget, i, x, hi, hx, l, hl, htag⟩
  · rintro ⟨target, htarget, y, x, hy, hx, l, hl, htag⟩
    cases hi.symm.trans hy
    exact ⟨x, ⟨target, htarget, hx⟩, l, htag, hl⟩

/-- The constraints on jumps are asked for beside those on the instruction itself. -/
theorem allow_eq_withoutJumps (c : Constraints) (code : Code) (i : Instruction) :
    c.allow code i =
      (c.withoutJumps.allow code i &&
        (c.jumpsFrom.isEmpty || i.labels.any (· ∈ c.incoming code)) &&
        (c.jumpsTo.isEmpty || (c.jumpsTo.filterMap (code[·]?)).any (i.branchesTo ·))) := by
  -- without indices the two constraints on jumps are met by any instruction
  change _ = (_ && true && true && _ && _)
  rw [Bool.and_true, Bool.and_true]
  rfl

/-- An instruction meets constraints if it meets those on itself, and one of the indices of each
constraint on jumps, if there are any, is the other end of a jump. -/
theorem allow_iff (hi : code[k]? = some i) :
    c.allow code i = true ↔
      c.withoutJumps.allow code i = true ∧
        (c.jumpsFrom ≠ [] → ∃ source ∈ c.jumpsFrom, code.Jumps source k) ∧
        (c.jumpsTo ≠ [] → ∃ target ∈ c.jumpsTo, code.Jumps k target) := by
  rw [allow_eq_withoutJumps]
  simp only [Bool.and_eq_true, Bool.or_eq_true, List.isEmpty_iff, tagged_incoming_iff hi,
    branchesTo_jumpsTo_iff hi, or_iff_not_imp_left, and_assoc, ne_eq]

end Constraints

namespace Pattern

variable {code : Code} {i j : Nat}

/-- The pattern of an instruction that is jumped to from one of the sources and jumps to one of the
targets. -/
def jumping (name : Option String) (sources targets : List Nat) : Pattern where
  name := name
  test := .constraints { jumpsFrom := sources, jumpsTo := targets }

/-- The pattern matches the instructions that have such a jump for each list that is not empty. -/
theorem matchesAt_jumping_iff {name : Option String} {sources targets : List Nat} {k : Nat} :
    (jumping name sources targets).matchesAt code k = true ↔
      k < code.length ∧ (sources ≠ [] → ∃ source ∈ sources, code.Jumps source k) ∧
        (targets ≠ [] → ∃ target ∈ targets, code.Jumps k target) := by
  by_cases hk : k < code.length
  · have hi := List.getElem?_eq_getElem hk
    have hself : Constraints.allow {} code code[k] = true := rfl
    have hallow := Constraints.allow_iff (c := { jumpsFrom := sources, jumpsTo := targets }) hi
    simp only [matchesAt, jumping, hi, hallow, Constraints.withoutJumps, hself, hk, true_and]
  · simp [matchesAt, hk]

/-- A pattern with one source matches exactly where a jump from there ends. -/
theorem matchesAt_jumpsFrom_iff : (any.jumpsFrom i).matchesAt code j = true ↔ code.Jumps i j := by
  change (jumping none [i] []).matchesAt code j = true ↔ _
  rw [matchesAt_jumping_iff]
  simp only [ne_eq, not_true_eq_false, reduceCtorEq, not_false_eq_true, forall_const,
    List.mem_singleton, exists_eq_left, false_imp_iff, and_true]
  exact and_iff_right_of_imp Code.Jumps.target_lt

/-- A pattern with one target matches exactly where a jump to there starts. -/
theorem matchesAt_jumpsTo_iff : (any.jumpsTo j).matchesAt code i = true ↔ code.Jumps i j := by
  change (jumping none [] [j]).matchesAt code i = true ↔ _
  rw [matchesAt_jumping_iff]
  simp only [ne_eq, not_true_eq_false, reduceCtorEq, not_false_eq_true, forall_const,
    List.mem_singleton, exists_eq_left, false_imp_iff, true_and]
  exact and_iff_right_of_imp Code.Jumps.source_lt

/-- The two constraints on jumps are converses of each other and mean the jumps of the code, inside
the code and outside. Where a pattern has nothing but lists of indices, an index of each list must
be the other end of a jump, and only a list without any index leaves the instruction free. Where
the check of labels succeeds, each branch target of an instruction leads to exactly one index that
the instruction jumps to through it. -/
theorem jumpsTo_dual_jumpsFrom (code : Code) :
    (∀ i j, (any.jumpsTo j).matchesAt code i = (any.jumpsFrom i).matchesAt code j ∧
        ((any.jumpsTo j).matchesAt code i = true ↔ code.Jumps i j)) ∧
      (∀ name sources targets k, (jumping name sources targets).matchesAt code k = true ↔
        k < code.length ∧ (sources ≠ [] → ∃ source ∈ sources, code.Jumps source k) ∧
          (targets ≠ [] → ∃ target ∈ targets, code.Jumps k target)) ∧
      (∀ c : Cursor, c.code = code → c.checkLabels = .ok () → ∀ i l, code.TargetsAt l i →
        ∃! j, (any.jumpsTo j).matchesAt code i = true ∧ code.TagsAt l j) := by
  refine ⟨fun i j => ⟨?_, matchesAt_jumpsTo_iff⟩, fun _ _ _ _ => matchesAt_jumping_iff, ?_⟩
  · exact Bool.eq_iff_iff.2 (matchesAt_jumpsTo_iff.trans matchesAt_jumpsFrom_iff.symm)
  · rintro c rfl hcheck i l hl
    simp only [matchesAt_jumpsTo_iff]
    exact (Cursor.checkLabels_eq_ok_iff.1 hcheck).existsUnique_jumps hl

/-- A jump table, a load of a token that is also a label, and a branch to itself. -/
def tableAndToken : Cursor := Cursor.ofCode
  [{ opcode := .switch, operand := some (.labels [⟨8⟩, ⟨7⟩]) },
   { opcode := .ldtoken, operand := some (.label ⟨7⟩), labels := [⟨7⟩] },
   { Instruction.branch .br ⟨8⟩ with labels := [⟨8⟩] }]

/-- The table jumps to both of the others, to each through one of its targets. The load jumps
nowhere, although it has its own label for an operand. The branch is jumped to from the table and
jumps to itself, and an index outside the code adds nothing to that; it does not do alone. -/
theorem jumpsTo_dual_jumpsFrom_tableAndToken :
    tableAndToken.checkLabels = .ok () ∧
      (any.jumpsTo 1).matchesAt tableAndToken.code 0 = true ∧
      (any.jumpsFrom 0).matchesAt tableAndToken.code 1 = true ∧
      (any.jumpsTo 1).matchesAt tableAndToken.code 1 = false ∧
      (jumping none [9, 0] [2, 9]).matchesAt tableAndToken.code 2 = true ∧
      (jumping none [9] []).matchesAt tableAndToken.code 2 = false ∧
      ∃! j, (any.jumpsTo j).matchesAt tableAndToken.code 0 = true ∧
        tableAndToken.code.TagsAt ⟨7⟩ j := by
  have hlabels : tableAndToken.checkLabels = .ok () := Cursor.checkLabels_eq_ok_iff.2 (by decide)
  obtain ⟨hdual, hlists, hunique⟩ := jumpsTo_dual_jumpsFrom tableAndToken.code
  have htable : tableAndToken.code.Jumps 0 1 := ⟨_, _, rfl, rfl, ⟨7⟩, by decide, by decide⟩
  have htable' : tableAndToken.code.Jumps 0 2 := ⟨_, _, rfl, rfl, ⟨8⟩, by decide, by decide⟩
  have hself : tableAndToken.code.Jumps 2 2 := ⟨_, _, rfl, rfl, ⟨8⟩, by decide, by decide⟩
  have hto := (hdual 0 1).2.2 htable
  refine ⟨hlabels, hto, (hdual 0 1).1.symm.trans hto, ?_, ?_, ?_, ?_⟩
  · refine Bool.eq_false_iff.2 fun h => ?_
    obtain ⟨source, -, hsource, -, l, hl, -⟩ := (hdual 1 1).2.1 h
    cases hsource
    cases hl
  · refine (hlists _ _ _ _).2 ⟨by decide, fun _ => ?_, fun _ => ?_⟩
    · exact ⟨0, by decide, htable'⟩
    · exact ⟨2, by decide, hself⟩
  · refine Bool.eq_false_iff.2 fun h => ?_
    obtain ⟨source, hsource, hjumps⟩ := ((hlists _ _ _ _).1 h).2.1 (by decide)
    cases List.mem_singleton.1 hsource
    exact absurd hjumps.source_lt (by decide)
  · exact hunique _ rfl hlabels 0 ⟨7⟩ ⟨_, rfl, by decide⟩

end Pattern

end Weaving
