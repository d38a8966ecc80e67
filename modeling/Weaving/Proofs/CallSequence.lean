import Weaving.Proofs.CallSearch

/-!
# From call to call

Going behind the nearest call again and again visits the calls of a method one after the other. One
step goes behind the first call from the position on, and behind the `pop` of its result
(`Edit.seekAfterCall_cases`). What it skips is no call, so the calls that are left are those that
were there without the first (`Code.CallsFrom.tail`). Hence there are as many steps as calls, each
of them behind one call, and the next step fails past the code (`Edit.seekAfterCall_enumerates`).
-/

namespace Weaving

namespace Code

variable {md : Metadata} {target : MethodPattern} {code : Code} {start k : Nat} {rest : List Nat}

/-- The index behind a call, and behind the `pop` of its result if that follows. -/
def behindCall (code : Code) (k : Nat) : Nat :=
  if code[k + 1]?.map (·.opcode) = some .pop then k + 2 else k + 1

/-- The list has the indices of the calls from the start on, each once and in increasing order. -/
structure CallsFrom (md : Metadata) (target : MethodPattern) (code : Code) (start : Nat)
    (calls : List Nat) : Prop where
  increasing : calls.Pairwise (· < ·)
  mem_iff : ∀ k, k ∈ calls ↔ start ≤ k ∧ code.CallAt md target k

/-- The calls from an index on can be listed. -/
theorem exists_callsFrom (md : Metadata) (target : MethodPattern) (code : Code) (start : Nat) :
    ∃ calls, code.CallsFrom md target start calls := by
  refine ⟨(List.range code.length).filter fun k =>
    start ≤ k && code[k]?.any (·.callsMatch md target), ?_, fun k => ?_⟩
  · exact List.pairwise_lt_range.filter _
  · rw [← holdsAt_callsMatch, holdsAt_iff, List.mem_filter, List.mem_range, Bool.and_eq_true,
      decide_eq_true_iff]
    exact and_left_comm

/-- A `pop` is no call. -/
theorem CallAt.not_pop (h : code.CallAt md target k) : code[k]?.map (·.opcode) ≠ some .pop := by
  obtain ⟨i, m, hi, hcall, -⟩ := h
  rw [hi, Option.map_some]
  intro hpop
  rw [Option.some.inj hpop] at hcall
  cases hcall

namespace CallsFrom

/-- The first of the calls is the nearest one. -/
theorem isLeast (h : code.CallsFrom md target start (k :: rest)) :
    IsLeast {j | start ≤ j ∧ code.CallAt md target j} k := by
  refine ⟨(h.mem_iff k).1 List.mem_cons_self, fun j hj => ?_⟩
  rcases List.mem_cons.1 ((h.mem_iff j).2 hj) with rfl | hrest
  · exact Nat.le_refl j
  · exact Nat.le_of_lt (List.rel_of_pairwise_cons h.increasing hrest)

/-- Behind the first call are the others. -/
theorem tail (h : code.CallsFrom md target start (k :: rest)) :
    code.CallsFrom md target (code.behindCall k) rest := by
  obtain ⟨hstart, -⟩ := (h.mem_iff k).1 List.mem_cons_self
  refine ⟨h.increasing.of_cons, fun j => ?_⟩
  constructor
  · intro hj
    obtain ⟨-, hcall⟩ := (h.mem_iff j).1 (List.mem_cons_of_mem k hj)
    have hlt : k < j := List.rel_of_pairwise_cons h.increasing hj
    refine ⟨?_, hcall⟩
    unfold behindCall
    split
    · next hpop =>
      -- the call is not the `pop` that is skipped
      have hne : j ≠ k + 1 := fun heq => (heq ▸ hcall).not_pop hpop
      omega
    · exact hlt
  · rintro ⟨hbehind, hcall⟩
    have hlt : k < j := by
      unfold behindCall at hbehind
      split at hbehind <;> omega
    refine List.mem_of_ne_of_mem (Nat.ne_of_gt hlt) ?_
    exact (h.mem_iff j).2 ⟨Nat.le_trans hstart (Nat.le_of_lt hlt), hcall⟩

end CallsFrom

end Code

namespace Edit

variable {σ : Type} {md : Metadata} {target : MethodPattern} {w w₁ : Workspace σ}

/-- From a call, the cursor goes behind it and behind the `pop` of its result. -/
theorem seekAfterCall_of_seekCall {k : Nat} (hseek : seekCall md target w = .ok () w₁)
    (hk : w₁.cursor.position = k) (hlt : k < w₁.cursor.length) :
    seekAfterCall md target w =
      .ok () { w₁ with cursor := { w₁.cursor with position := w₁.cursor.code.behindCall k } } := by
  have hnext : w₁.cursor.advance 1 = { w₁.cursor with position := (k + 1 : Nat) } :=
    Cursor.advance_of_range _ (by omega) (by omega) (by omega)
  have hopcode : (w₁.cursor.advance 1).opcode? = w₁.cursor.code[k + 1]?.map (·.opcode) := by
    rw [hnext, Cursor.opcode?, Cursor.instruction?_of_position rfl]
  rw [seekAfterCall, bind_of_ok hseek]
  refine (bind_of_ok (modifyCursor_apply _ w₁)).trans ?_
  refine (bind_of_ok (cursor_apply _)).trans ?_
  dsimp only
  rw [hopcode, Code.behindCall]
  by_cases hpop : w₁.cursor.code[k + 1]?.map (·.opcode) = some .pop
  · obtain ⟨x, hx, -⟩ := Option.map_eq_some_iff.1 hpop
    have hlast : k + 1 < w₁.cursor.length := (List.getElem?_eq_some_iff.1 hx).1
    have htwo : (w₁.cursor.advance 1).advance 1 =
        { w₁.cursor with position := (k + 2 : Nat) } := by
      rw [hnext]
      exact Cursor.advance_of_range _ rfl (by omega) (Int.ofNat_le.2 hlast)
    rw [if_pos hpop, if_pos hpop, ← htwo]
    rfl
  · rw [if_neg hpop, if_neg hpop, ← hnext]
    rfl

/-- One step goes behind the first call from the position on, or fails past the code if there is
none. Nothing of the cursor changes but its position and its failure. -/
theorem seekAfterCall_cases (md : Metadata) (target : MethodPattern) (w : Workspace σ) :
    let s := (max w.cursor.position 0).toNat
    (∃ k w₁, IsLeast {k | s ≤ k ∧ w.cursor.code.CallAt md target k} k ∧
        seekAfterCall md target w = .ok () w₁ ∧
        w₁.cursor = { w.cursor with position := w.cursor.code.behindCall k, failure := none }) ∨
      (∀ k, s ≤ k → ¬ w.cursor.code.CallAt md target k) ∧
        ∃ w₁, seekAfterCall md target w = .error (.callNotFound target) w₁ ∧
          w₁.cursor.code = w.cursor.code ∧ w₁.cursor.position = w.cursor.length := by
  intro s
  obtain ⟨k, w₁, hleast, hseek, hcursor⟩ | ⟨hnone, w₁, hseek, hcursor⟩ :=
    seekCall_cases md target w
  · have hk : w₁.cursor.position = k := by rw [hcursor]
    have hlt : k < w₁.cursor.length := by
      rw [hcursor]
      exact hleast.1.2.lt
    refine .inl ⟨k, _, hleast, seekAfterCall_of_seekCall hseek hk hlt, ?_⟩
    simp only [hcursor]
  · refine .inr ⟨hnone, w₁, ?_, ?_⟩
    · rw [seekAfterCall, bind_of_error hseek]
    · rw [hcursor]
      exact ⟨rfl, rfl⟩

/-- Steps from call to call: each of the workspaces is what one step makes of the one before it. -/
abbrev CallSteps (md : Metadata) (target : MethodPattern) (ws : List (Workspace σ)) : Prop :=
  ws.IsChain fun w w₁ => seekAfterCall md target w = .ok () w₁

/-- There is a step for each of the calls, and none after them. -/
theorem exists_callSteps {calls : List Nat} {w : Workspace σ}
    (h : w.cursor.code.CallsFrom md target (max w.cursor.position 0).toNat calls) :
    ∃ (stops : List (Workspace σ)) (w' : Workspace σ), CallSteps md target (w :: stops) ∧
      stops.map (·.cursor.position) = calls.map (fun k => (w.cursor.code.behindCall k : Int)) ∧
      seekAfterCall md target (stops.getLastD w) = .error (.callNotFound target) w' ∧
      w'.cursor.position = w.cursor.length ∧
      ∀ w₁ ∈ w' :: stops, w₁.cursor.code = w.cursor.code := by
  induction calls generalizing w with
  | nil =>
    obtain ⟨k, -, ⟨hk, -⟩, -⟩ | ⟨-, w', hrun, hcode, hposition⟩ := seekAfterCall_cases md target w
    · exact absurd ((h.mem_iff k).2 hk) List.not_mem_nil
    · refine ⟨[], w', .singleton w, rfl, hrun, hposition, ?_⟩
      simpa using hcode
  | cons k rest ih =>
    obtain ⟨j, w₁, hleast, hrun, hcursor⟩ | ⟨hnone, -⟩ := seekAfterCall_cases md target w
    · obtain rfl := hleast.unique h.isLeast
      have hcode : w₁.cursor.code = w.cursor.code := by rw [hcursor]
      have hposition : w₁.cursor.position = w.cursor.code.behindCall j := by rw [hcursor]
      -- from behind the call on, the calls are those that are left
      have hrest : w₁.cursor.code.CallsFrom md target (max w₁.cursor.position 0).toNat rest := by
        have hstart : (max w₁.cursor.position 0).toNat = w.cursor.code.behindCall j := by omega
        rw [hstart, hcode]
        exact h.tail
      obtain ⟨stops, w', hsteps, hstops, hend, hpast, hkept⟩ := ih hrest
      rw [hcode] at hstops hkept
      refine ⟨w₁ :: stops, w', .cons_cons hrun hsteps, ?_, ?_, ?_, ?_⟩
      · rw [List.map_cons, List.map_cons, hposition, hstops]
      · rwa [List.getLastD_cons]
      · rw [hpast, Cursor.length, hcode]
        rfl
      · intro w₂ hw₂
        simp only [List.mem_cons] at hw₂ hkept
        rcases hw₂ with rfl | rfl | hw₂
        · exact hkept _ (.inl rfl)
        · exact hcode
        · exact hkept w₂ (.inr hw₂)
    · exact absurd h.isLeast.1.2 (hnone k h.isLeast.1.1)

/-- Going behind the nearest call again and again visits every call from the position on once. There
are as many steps that succeed as there are calls, and they leave the cursor behind one after the
other, behind the `pop` of its result if that follows. The next step finds no call and leaves the
cursor past the code. The code stays as it is. -/
theorem seekAfterCall_enumerates (md : Metadata) (target : MethodPattern) (w : Workspace σ) :
    let code := w.cursor.code
    let s := (max w.cursor.position 0).toNat
    ∃ (calls : List Nat) (stops : List (Workspace σ)) (w' : Workspace σ),
      calls.Pairwise (· < ·) ∧ (∀ k, k ∈ calls ↔ s ≤ k ∧ code.CallAt md target k) ∧
      CallSteps md target (w :: stops) ∧
      stops.map (·.cursor.position) = calls.map (fun k => (code.behindCall k : Int)) ∧
      seekAfterCall md target (stops.getLastD w) = .error (.callNotFound target) w' ∧
      w'.cursor.position = code.length ∧
      ∀ w₁ ∈ w' :: stops, w₁.cursor.code = code := by
  intro code s
  obtain ⟨calls, hcalls⟩ := code.exists_callsFrom md target s
  obtain ⟨stops, w', hsteps⟩ := exists_callSteps hcalls
  exact ⟨calls, stops, w', hcalls.increasing, hcalls.mem_iff, hsteps⟩

end Edit

end Weaving
