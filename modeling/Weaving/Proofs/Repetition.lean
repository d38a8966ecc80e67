import Weaving.Proofs.Match
import Weaving.Proofs.Run

/-!
# Repetition

A repetition goes in rounds: the action runs where the cursor is, and the match is searched for
again from where the action left it. `Edit.Rounds` says that some rounds lead from one workspace to
another, and lists the workspaces in which the action was run. It knows no number of rounds to begin
with; a repetition that is given enough of them does what the rounds say (`Rounds.forEachFrom`).
Each search that finds a match makes the part of the code that is still ahead smaller
(`Query.ahead_findFrom_lt`). So a repetition ends if no run of its action adds to that part, and
there are no more runs than instructions ahead (`forEachMatch_terminates`).
-/

namespace Weaving

variable {σ : Type}

/-! ## Rounds -/

/-- The cursor with the match forgotten. -/
def Cursor.forgetting (c : Cursor) : Cursor := { c with remembered := none }

namespace Workspace

/-- The workspace with the match forgotten. -/
def forgetting (w : Workspace σ) : Workspace σ := { w with cursor := w.cursor.forgetting }

/-- The workspace after a repetition came to its end. -/
def repeated (q : Query) (count : Nat) (w : Workspace σ) : Workspace σ :=
  { w.forgetting with log := w.log ++ [.repeated count q.patterns] }

/-- The workspace after a search took the cursor somewhere, with its failure in the log. -/
def landed (w : Workspace σ) (c : Cursor) : Workspace σ :=
  { w with cursor := c, log := w.log ++ c.failure.toList.map .searchFailed }

/-- The workspace after the match was searched for again from where the cursor is. -/
def searchOn (q : Query) (w : Workspace σ) : Workspace σ :=
  w.landed (w.cursor.findFrom (q.restart w.cursor.position) q)

end Workspace

namespace Edit

/-- A search takes the cursor to where it ended, and logs its failure. -/
theorem land_apply (c : Cursor) (w : Workspace σ) : land c w = .ok () (w.landed c) := by
  rw [land, bind_of_ok (setCursor_apply c w), Workspace.landed]
  cases c.failure with
  | none =>
    simp only [Option.toList_none, List.map_nil, List.append_nil]
    rfl
  | some failure => rfl

/-- Rounds of a repetition lead from one workspace to another. The list has the workspaces in which
the action was run, in order. -/
inductive Rounds (q : Query) (action : Edit σ Unit) :
    Workspace σ → List (Workspace σ) → Workspace σ → Prop
  | refl (w : Workspace σ) : Rounds q action w [] w
  | round {w w₁ w₂ : Workspace σ} {runs : List (Workspace σ)} (hvalid : w.cursor.isValid = true)
      (haction : action w = .ok () w₁) (hrest : Rounds q action (w₁.searchOn q) runs w₂) :
      Rounds q action w (w :: runs) w₂

section
variable {q : Query} {action : Edit σ Unit} {w w' : Workspace σ}

/-- A repetition ends when the cursor is on no instruction. -/
theorem forEachFrom_of_invalid (rounds count : Nat) (h : w.cursor.isValid = false) :
    forEachFrom q action rounds count w = .ok count w := by
  cases rounds with
  | zero =>
    rw [Edit.forEachFrom, bind_of_ok (cursor_apply w), h]
    rfl
  | succ rounds =>
    rw [Edit.forEachFrom, bind_of_ok (cursor_apply w), h]
    rfl

/-- A repetition ends with the error of its action. -/
theorem forEachFrom_of_error {err : Error} (rounds count : Nat) (h : w.cursor.isValid = true)
    (haction : action w = .error err w') :
    forEachFrom q action (rounds + 1) count w = .error err w' := by
  rw [Edit.forEachFrom, bind_of_ok (cursor_apply w), if_pos h, bind_of_error haction]

/-- After a run of the action a repetition goes on from the next match. -/
theorem forEachFrom_of_ok (rounds count : Nat) (h : w.cursor.isValid = true)
    (haction : action w = .ok () w') :
    forEachFrom q action (rounds + 1) count w =
      forEachFrom q action rounds (count + 1) (w'.searchOn q) := by
  rw [Edit.forEachFrom, bind_of_ok (cursor_apply w), if_pos h, bind_of_ok haction,
    bind_of_ok (cursor_apply w'), bind_of_ok (land_apply _ w')]
  rfl

/-- A repetition goes through the rounds that it is given. -/
theorem Rounds.forEachFrom {runs : List (Workspace σ)} (h : Rounds q action w runs w')
    (rounds count : Nat) :
    forEachFrom q action (runs.length + rounds) count w =
      forEachFrom q action rounds (count + runs.length) w' := by
  induction h generalizing count with
  | refl w => rw [List.length_nil, Nat.zero_add, Nat.add_zero]
  | @round w w₁ w₂ runs hvalid haction _ ih =>
    rw [List.length_cons, Nat.add_right_comm, forEachFrom_of_ok _ _ hvalid haction, ih,
      Nat.add_assoc, Nat.add_comm 1]

/-- A repetition that comes to its end reports how often the action ran, and forgets the match. -/
theorem Rounds.forEachMatch_of_invalid {runs : List (Workspace σ)} {rounds : Nat}
    (h : Rounds q action w.forgetting runs w') (hq : w.cursor.remembered = some q)
    (hend : w'.cursor.isValid = false) (hrounds : runs.length ≤ rounds) :
    forEachMatch rounds action w = .ok runs.length (w'.repeated q runs.length) := by
  obtain ⟨more, rfl⟩ := Nat.exists_eq_add_of_le hrounds
  have hrun := h.forEachFrom more 0
  rw [forEachFrom_of_invalid _ _ hend, Nat.zero_add] at hrun
  rw [forEachMatch, bind_of_ok (cursor_apply w), hq]
  refine (bind_of_ok (modifyCursor_apply _ w)).trans ((bind_of_ok hrun).trans ?_)
  rfl

/-- A repetition fails with the error of its action. -/
theorem Rounds.forEachMatch_of_error {runs : List (Workspace σ)} {w₂ : Workspace σ} {err : Error}
    {rounds : Nat} (h : Rounds q action w.forgetting runs w') (hq : w.cursor.remembered = some q)
    (hvalid : w'.cursor.isValid = true) (haction : action w' = .error err w₂)
    (hrounds : runs.length + 1 ≤ rounds) : forEachMatch rounds action w = .error err w₂ := by
  obtain ⟨more, rfl⟩ := Nat.exists_eq_add_of_le hrounds
  have hrun := h.forEachFrom (more + 1) 0
  rw [forEachFrom_of_error _ _ hvalid haction] at hrun
  rw [forEachMatch, bind_of_ok (cursor_apply w), hq, Nat.add_assoc, Nat.add_comm 1]
  exact (bind_of_ok (modifyCursor_apply _ w)).trans (bind_of_error hrun)

end

end Edit

/-! ## Progress -/

namespace Query

/-- How much a repetition has ahead of the cursor: the instructions from the position on, or, if it
goes backward, those up to the position. -/
def ahead (q : Query) (c : Cursor) : Int :=
  match q.direction with
  | .forward => c.length - c.position
  | .backward => c.position + 1

variable {q : Query} {c : Cursor}

/-- On an instruction there is something ahead, namely that instruction. -/
theorem ahead_pos (h : c.isValid = true) : 0 < q.ahead c := by
  obtain ⟨hlow, hhigh⟩ := Cursor.isValid_iff.1 h
  unfold ahead
  cases q.direction with
  | forward => dsimp only; omega
  | backward => dsimp only; omega

/-- Within the sentinels there is never less than nothing ahead. -/
theorem ahead_nonneg (h : c.InRange) : 0 ≤ q.ahead c := by
  obtain ⟨hlow, hhigh⟩ := h
  unfold ahead
  cases q.direction with
  | forward => dsimp only; omega
  | backward => dsimp only; omega

/-- After the search for the next match there is less ahead, or the search ends on the sentinel. -/
theorem ahead_findFrom_lt (q : Query) (c : Cursor) :
    let c' := c.findFrom (q.restart c.position) q
    c'.isValid = true ∧ q.ahead c' < q.ahead c ∨
      c'.isValid = false ∧ c'.position = q.direction.sentinel c'.length := by
  intro c'
  cases h : c.nearestMatch? q.direction (q.restart c.position) q.patterns with
  | none =>
    have hc' : c' = c.offMatch q (q.restart c.position) := Cursor.findFrom_of_none h
    rw [hc']
    exact .inr ⟨Cursor.isValid_offMatch, rfl⟩
  | some i =>
    have hc' : c' = c.onMatch q i := Cursor.findFrom_of_some h
    obtain ⟨hi, hmatch, -⟩ := Cursor.nearestMatch?_eq_some h
    refine .inl ⟨hc' ▸ Cursor.isValid_onMatch hmatch, ?_⟩
    have hposition : (c.onMatch q i).position = (i + q.offset : Nat) := rfl
    have hlength : (c.onMatch q i).length = c.length := rfl
    rw [hc']
    unfold ahead
    unfold restart at hi
    cases hdirection : q.direction with
    | forward =>
      rw [hdirection, Direction.mem_indices_forward] at hi
      dsimp only at hi ⊢
      omega
    | backward =>
      rw [hdirection, Direction.mem_indices_backward] at hi
      dsimp only at hi ⊢
      omega

end Query

/-! ## Termination -/

namespace Edit

variable {q : Query} {action : Edit σ Unit} {w w₁ : Workspace σ} {runs : List (Workspace σ)}

/-- Rounds with a run in them leave the instructions only for the sentinel. -/
theorem Rounds.position_of_invalid (h : Rounds q action w runs w₁) (hruns : runs ≠ [])
    (hend : w₁.cursor.isValid = false) :
    w₁.cursor.position = q.direction.sentinel w₁.cursor.length := by
  induction h with
  | refl w => exact absurd rfl hruns
  | @round w w₁ w₂ runs hvalid haction hrest ih =>
    cases hrest with
    | refl =>
      rcases q.ahead_findFrom_lt w₁.cursor with ⟨hvalid₁, -⟩ | ⟨-, hposition⟩
      · exact absurd hvalid₁ (Bool.eq_false_iff.1 hend)
      · exact hposition
    | round => exact ih (List.cons_ne_nil _ _) hend

/-- Rounds from a cursor in range leave the instructions only for a sentinel. -/
theorem Rounds.sentinel_of_invalid (h : Rounds q action w runs w₁) (hrange : w.cursor.InRange)
    (hend : w₁.cursor.isValid = false) :
    w₁.cursor.position = -1 ∨ w₁.cursor.position = w₁.cursor.length := by
  cases h with
  | refl =>
    have hout := mt hrange.isValid_iff.2 (Bool.eq_false_iff.1 hend)
    by_cases hbefore : w.cursor.position = -1
    · exact .inl hbefore
    · exact .inr (not_not.1 fun hafter => hout ⟨hbefore, hafter⟩)
  | round hvalid haction hrest =>
    have hposition := (hrest.round hvalid haction).position_of_invalid (List.cons_ne_nil _ _) hend
    cases hdirection : q.direction with
    | forward => exact .inr (by rw [hposition, hdirection, Direction.sentinel])
    | backward => exact .inl (by rw [hposition, hdirection, Direction.sentinel])

/-- In all the rounds that lead on from the workspace, what is ahead of the cursor after a
successful run of the action is no more than it was before. -/
def KeepsAhead (q : Query) (action : Edit σ Unit) (w : Workspace σ) : Prop :=
  ∀ runs w₁ w₂, Rounds q action w runs w₁ → w₁.cursor.isValid = true → action w₁ = .ok () w₂ →
    q.ahead w₂.cursor ≤ q.ahead w₁.cursor

/-- Rounds after the first are among the rounds that lead on from the start. -/
theorem KeepsAhead.searchOn (h : KeepsAhead q action w) (hvalid : w.cursor.isValid = true)
    (haction : action w = .ok () w₁) : KeepsAhead q action (w₁.searchOn q) :=
  fun _ w₂ w₃ hrounds => h _ w₂ w₃ (.round hvalid haction hrounds)

/-- After a round the cursor is on no instruction or there is less ahead of it. -/
theorem KeepsAhead.ahead_searchOn_lt (h : KeepsAhead q action w) (hvalid : w.cursor.isValid = true)
    (haction : action w = .ok () w₁) (hvalid₁ : (w₁.searchOn q).cursor.isValid = true) :
    q.ahead (w₁.searchOn q).cursor < q.ahead w.cursor := by
  have hkeeps : q.ahead w₁.cursor ≤ q.ahead w.cursor := h [] w w₁ (.refl w) hvalid haction
  rcases q.ahead_findFrom_lt w₁.cursor with ⟨-, hlt⟩ | ⟨hinvalid, -⟩
  · exact Int.lt_of_lt_of_le hlt hkeeps
  · exact absurd hvalid₁ (Bool.eq_false_iff.1 hinvalid)

/-- What is put in front of the cursor is not ahead of it. -/
theorem keepsAhead_emit (hdirection : q.direction = .forward) (more : Code) (w : Workspace σ) :
    KeepsAhead q (emit more) w := by
  intro runs w₁ w₂ _ hvalid hemit
  obtain ⟨hlow, hhigh⟩ := Cursor.isValid_iff.1 hvalid
  rw [emit_of_canInsert more ⟨hlow, Int.le_of_lt hhigh⟩] at hemit
  cases hemit
  have hlength := w₁.cursor.length_splice more
  have hposition : (w₁.cursor.splice more).position = w₁.cursor.position + more.length := rfl
  simp only [Query.ahead, hdirection]
  omega

/-- If no run of the action adds to what is ahead, the rounds come to an end: the cursor is on no
instruction, or the action fails. Up to there the action ran no more often than there were
instructions ahead. -/
theorem KeepsAhead.exists_rounds (h : KeepsAhead q action w) {n : Nat}
    (hn : w.cursor.isValid = true → q.ahead w.cursor ≤ n) :
    ∃ runs w₁, Rounds q action w runs w₁ ∧
      (w₁.cursor.isValid = false ∧ runs.length ≤ n ∨
        w₁.cursor.isValid = true ∧ runs.length + 1 ≤ n ∧ ∃ err w₂, action w₁ = .error err w₂) := by
  induction n generalizing w with
  | zero =>
    refine ⟨[], w, .refl w, .inl ⟨Bool.eq_false_iff.2 fun hvalid => ?_, Nat.le_refl 0⟩⟩
    exact absurd (hn hvalid) (Int.not_le.2 (Query.ahead_pos hvalid))
  | succ n ih =>
    cases hvalid : w.cursor.isValid with
    | false => exact ⟨[], w, .refl w, .inl ⟨hvalid, Nat.zero_le _⟩⟩
    | true =>
      cases haction : action w with
      | error err w₂ =>
        exact ⟨[], w, .refl w, .inr ⟨hvalid, Nat.succ_le_succ (Nat.zero_le n), err, w₂, haction⟩⟩
      | ok a w₁ =>
        have hless : (w₁.searchOn q).cursor.isValid = true →
            q.ahead (w₁.searchOn q).cursor ≤ n := by
          intro hvalid₁
          have hlt := h.ahead_searchOn_lt hvalid haction hvalid₁
          have hle := hn hvalid
          omega
        obtain ⟨runs, w₂, hrounds, hend⟩ := ih (h.searchOn hvalid haction) hless
        refine ⟨w :: runs, w₂, .round hvalid haction hrounds, ?_⟩
        rcases hend with ⟨hinvalid, hruns⟩ | ⟨hvalid₂, hruns, herror⟩
        · exact .inl ⟨hinvalid, Nat.succ_le_succ hruns⟩
        · exact .inr ⟨hvalid₂, Nat.succ_le_succ hruns, herror⟩

/-- A repetition ends if no successful run of its action adds to what is ahead. It runs the action
no more often than there are instructions ahead at the start, and given that many rounds it ends
with the error of the action or with the cursor on a sentinel, which is that of the direction if the
action ran at all. -/
theorem forEachMatch_terminates (hq : w.cursor.remembered = some q) (hrange : w.cursor.InRange)
    (hkeeps : KeepsAhead q action w.forgetting) :
    ∃ runs w₁, Rounds q action w.forgetting runs w₁ ∧
      ((∃ w', w' = w₁.repeated q runs.length ∧ runs.length ≤ q.ahead w.cursor ∧
          (∀ rounds, runs.length ≤ rounds → forEachMatch rounds action w = .ok runs.length w') ∧
          (w'.cursor.position = -1 ∨ w'.cursor.position = w'.cursor.length) ∧
          (runs ≠ [] → w'.cursor.position = q.direction.sentinel w'.cursor.length)) ∨
        ∃ err w', runs.length + 1 ≤ q.ahead w.cursor ∧ w₁.cursor.isValid = true ∧
          action w₁ = .error err w' ∧
          ∀ rounds, runs.length + 1 ≤ rounds → forEachMatch rounds action w = .error err w') := by
  obtain ⟨n, hn⟩ : ∃ n : Nat, q.ahead w.cursor = n :=
    Int.eq_ofNat_of_zero_le (Query.ahead_nonneg hrange)
  obtain ⟨runs, w₁, hrounds, hend⟩ := hkeeps.exists_rounds (n := n) fun _ => Int.le_of_eq hn
  refine ⟨runs, w₁, hrounds, ?_⟩
  rw [hn]
  rcases hend with ⟨hinvalid, hruns⟩ | ⟨hvalid, hruns, err, w', herror⟩
  · refine .inl ⟨_, rfl, Int.ofNat_le.2 hruns,
      fun rounds => hrounds.forEachMatch_of_invalid hq hinvalid, ?_, fun hne => ?_⟩
    · exact hrounds.sentinel_of_invalid hrange hinvalid
    · exact hrounds.position_of_invalid hne hinvalid
  · refine .inr ⟨err, w', Int.ofNat_le.2 hruns, hvalid, herror, fun rounds => ?_⟩
    exact hrounds.forEachMatch_of_error hq hvalid herror

/-- The cursor on the first of three loads, which is where they were searched for. -/
def onLoads : Workspace Unit where
  cursor :=
    { Cursor.ofCode [.ldnull, .ldnull, .ldnull] with
      position := 0
      remembered := some ⟨[.opcode .ldnull], false, .forward⟩ }
  own := ()

/-- A load is put in front of each load. The new loads match as well, but they are never ahead. -/
theorem forEachMatch_terminates_onLoads :
    onLoads.cursor.InRange ∧ ∃ n w', n ≤ 3 ∧
      (∀ rounds, n ≤ rounds → forEachMatch rounds (emit [.ldnull]) onLoads = .ok n w') ∧
      (w'.cursor.position = -1 ∨ w'.cursor.position = w'.cursor.length) := by
  have hrange : onLoads.cursor.InRange := ⟨by decide, by decide⟩
  obtain ⟨runs, w₁, -, hend⟩ :=
    forEachMatch_terminates (w := onLoads) rfl hrange (keepsAhead_emit rfl [.ldnull] _)
  refine ⟨hrange, ?_⟩
  rcases hend with ⟨w', -, hruns, hrun, hsentinel, -⟩ | ⟨err, w', -, hvalid, herror, -⟩
  · exact ⟨runs.length, w', Int.ofNat_le.1 hruns, hrun, hsentinel⟩
  · obtain ⟨hlow, hhigh⟩ := Cursor.isValid_iff.1 hvalid
    rw [emit_of_canInsert _ ⟨hlow, Int.le_of_lt hhigh⟩] at herror
    cases herror

end Edit

end Weaving
