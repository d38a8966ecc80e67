import Weaving.Proofs.CallSearch
import Weaving.Proofs.StackWalk

/-!
# The start of a call's arguments

The walk back from a call adds up nominal stack effects until the sum is the number of values that
the call takes. On code in general the sum rises and falls on the way and may lie below zero, and
the number may come up more than once or not at all. `Code.ArgumentsStart` says what the answer is
in terms of the sums alone (`Code.netBetween`): the greatest index from which on they account for
what the call takes. The walk finds it on every code (`Code.walkBack_cases`), so that the answer
for the nearest call is exact (`Edit.seekArguments_exact`).
-/

namespace Weaving

namespace Code

variable {code : Code} {c n : Nat}

/-- The sum of the nominal stack effects from the index `i` on, up to the index `c`, whose own does
not count. -/
def netBetween (code : Code) (i c : Nat) : Int := net ((code.take c).drop i)

/-- From an index up to itself nothing counts. -/
theorem netBetween_self (code : Code) (c : Nat) : code.netBetween c c = 0 := by
  have hnil : (code.take c).drop c = [] := List.drop_eq_nil_of_le (List.length_take_le c code)
  rw [netBetween, hnil, net_nil]

/-- One instruction more adds its own effect. -/
theorem netBetween_succ {i : Nat} (h : i ≤ c) :
    code.netBetween i (c + 1) = code.netBetween i c + code.deltaAt c := by
  unfold netBetween deltaAt
  rw [List.take_add_one]
  cases hx : code[c]? with
  | none => simp
  | some x =>
    obtain ⟨hlt, -⟩ := List.getElem?_eq_some_iff.1 hx
    have hlength : (code.take c).length = c := List.length_take_of_le (Nat.le_of_lt hlt)
    rw [List.drop_append_of_le_length (hlength.symm ▸ h), net_append]
    exact congrArg _ (net_singleton x)

/-- The walk stops at the greatest index from which on the sum is the one that is needed, and
nowhere if there is no such index. -/
theorem walkBack_cases (code : Code) (needed : Int) (c : Nat) (depth : Int) :
    (∃ i, code.walkBack needed c depth = some i ∧
        IsGreatest {i | i < c ∧ depth + code.netBetween i c = needed} i) ∨
      code.walkBack needed c depth = none ∧
        ∀ i < c, depth + code.netBetween i c ≠ needed := by
  -- one step moves the effect of the last instruction into the depth, hence for every depth
  induction c generalizing depth with
  | zero => exact .inr ⟨rfl, fun i hi => absurd hi (Nat.not_lt_zero i)⟩
  | succ c ih =>
    have hsum {i : Nat} (hi : i ≤ c) :
        depth + code.netBetween i (c + 1) = depth + code.deltaAt c + code.netBetween i c := by
      rw [netBetween_succ hi]
      omega
    rw [walkBack]
    by_cases hhere : depth + code.deltaAt c = needed
    · refine .inl ⟨c, if_pos hhere, ⟨Nat.lt_succ_self c, ?_⟩, fun j hj => Nat.le_of_lt_succ hj.1⟩
      rw [hsum (Nat.le_refl c), netBetween_self, hhere, Int.add_zero]
    · have hbefore (i : Nat) : i < c + 1 ∧ depth + code.netBetween i (c + 1) = needed ↔
          i < c ∧ depth + code.deltaAt c + code.netBetween i c = needed := by
        constructor
        · rintro ⟨hi, hneeded⟩
          rw [hsum (Nat.le_of_lt_succ hi)] at hneeded
          rcases Nat.eq_or_lt_of_le (Nat.le_of_lt_succ hi) with rfl | hlt
          · rw [netBetween_self, Int.add_zero] at hneeded
            exact absurd hneeded hhere
          · exact ⟨hlt, hneeded⟩
        · rintro ⟨hi, hneeded⟩
          exact ⟨Nat.lt_succ_of_lt hi, (hsum (Nat.le_of_lt hi)).trans hneeded⟩
      rw [if_neg hhere]
      simp only [hbefore]
      obtain hfound | ⟨hnone, hall⟩ := ih (depth + code.deltaAt c)
      · exact .inl hfound
      · refine .inr ⟨hnone, fun i hi hneeded => ?_⟩
        obtain ⟨hlt, hneeded⟩ := (hbefore i).1 ⟨hi, hneeded⟩
        exact hall i hlt hneeded

/-- Where the arguments start of a call at the index `c` that takes `n` values. -/
def ArgumentsStart (code : Code) (c n : Nat) : ArgumentStart → Prop
  | .alreadySatisfied => n = 0
  | .found i => 1 ≤ n ∧ IsGreatest {i | i < c ∧ code.netBetween i c = n} i
  | .notFound => 1 ≤ n ∧ ∀ i < c, code.netBetween i c ≠ n

/-- There is one answer. -/
theorem ArgumentsStart.unique {a b : ArgumentStart} (ha : code.ArgumentsStart c n a)
    (hb : code.ArgumentsStart c n b) : a = b := by
  cases a with
  | alreadySatisfied =>
    cases b with
    | alreadySatisfied => rfl
    | found | notFound => exact absurd ha (Nat.ne_of_gt hb.1)
  | found i =>
    cases b with
    | alreadySatisfied => exact absurd hb (Nat.ne_of_gt ha.1)
    | found j => rw [ha.2.unique hb.2]
    | notFound => exact absurd ha.2.1.2 (hb.2 i ha.2.1.1)
  | notFound =>
    cases b with
    | alreadySatisfied => exact absurd hb (Nat.ne_of_gt ha.1)
    | found j => exact absurd hb.2.1.2 (ha.2 j hb.2.1.1)
    | notFound => rfl

end Code

namespace Edit

variable {σ : Type} {md : Metadata} {target : MethodPattern} {w w₁ : Workspace σ} {c : Nat}

/-- The cursor stays on the call where the walk finds no start of the arguments. -/
theorem seekArguments_of_walkBack_none {m : MethodRef} (hseek : seekCall md target w = .ok () w₁)
    (hc : w₁.cursor.position = c) (hcallee : w₁.cursor.code[c]?.bind (·.callee?) = some m)
    (hsome : (md.method m).consumption ≠ 0)
    (hwalk : w₁.cursor.code.walkBack (md.method m).consumption c 0 = none) :
    let failure : Failure := .argumentLoad (md.method m).consumption target c
    seekArguments md target w = .ok .notFound
      { w₁ with
        cursor := { w₁.cursor with failure := some failure }
        log := w₁.log ++ [.searchFailed failure] } := by
  intro failure
  have hindex : w₁.cursor.position.toNat = c := by omega
  rw [seekArguments, bind_of_ok hseek, bind_of_ok (cursor_apply w₁)]
  dsimp only
  rw [hindex, hcallee, Option.elim_some, if_neg hsome, hwalk]
  rfl

/-- After the call was found, the answer is the one that the sums give. The cursor is at the start
of the arguments if that was found, and else on the call, with a failure if the start was searched
for. -/
theorem seekArguments_of_seekCall {m : MethodRef} (hseek : seekCall md target w = .ok () w₁)
    (hc : w₁.cursor.position = c) (hcallee : w₁.cursor.code[c]?.bind (·.callee?) = some m) :
    ∃ answer w', seekArguments md target w = .ok answer w' ∧
      w₁.cursor.code.ArgumentsStart c (md.method m).consumption answer ∧
      w'.cursor.code = w₁.cursor.code ∧
      match answer with
      | .found i => w'.cursor.position = i
      | .alreadySatisfied => w'.cursor.position = c
      | .notFound => w'.cursor.position = c ∧ w'.cursor.failure.isSome = true := by
  by_cases hnone : (md.method m).consumption = 0
  · exact ⟨_, _, seekArguments_of_no_arguments hseek hc hcallee hnone, hnone, rfl, hc⟩
  · have hpos : 1 ≤ (md.method m).consumption := Nat.one_le_iff_ne_zero.2 hnone
    have hwalk := w₁.cursor.code.walkBack_cases (md.method m).consumption c 0
    simp only [Int.zero_add] at hwalk
    obtain ⟨i, hi, hgreatest⟩ | ⟨hstuck, hall⟩ := hwalk
    · have hlt : i < c := hgreatest.1.1
      have hle : i ≤ w₁.cursor.length := by
        obtain ⟨x, hx, -⟩ := Option.bind_eq_some_iff.1 hcallee
        have := (List.getElem?_eq_some_iff.1 hx).1
        exact Nat.le_of_lt (Nat.lt_trans hlt this)
      exact ⟨_, _, seekArguments_of_walkBack hseek hc hcallee hnone hi hle, ⟨hpos, hgreatest⟩,
        rfl, rfl⟩
    · exact ⟨_, _, seekArguments_of_walkBack_none hseek hc hcallee hnone hstuck, ⟨hpos, hall⟩,
        rfl, hc, rfl⟩

/-- The start of the arguments is exact on every code. Where the search for the call stops at the
index `c`, there is an answer, and it is the one that the sums of stack effects in front of `c` give
for the number of values that the called method takes. The cursor is at the start if it was found,
and stays on the call otherwise, with a failure if the start was searched for in vain. The only
error is that there is no call from the position on, and it leaves the cursor past the code. The
code stays as it is. -/
theorem seekArguments_exact (md : Metadata) (target : MethodPattern) (w : Workspace σ) :
    let code := w.cursor.code
    let s := (max w.cursor.position 0).toNat
    (∀ w₁ (c : Nat), seekCall md target w = .ok () w₁ → w₁.cursor.position = c →
      ∃ m answer w', code[c]?.bind (·.callee?) = some m ∧
        seekArguments md target w = .ok answer w' ∧
        (∀ a, answer = a ↔ code.ArgumentsStart c (md.method m).consumption a) ∧
        (∀ i, answer = .found i → w'.cursor.position = i) ∧
        (answer = .alreadySatisfied → w'.cursor.position = c) ∧
        (answer = .notFound → w'.cursor.position = c ∧ w'.cursor.failure.isSome = true)) ∧
      ((∃ w', seekArguments md target w = .error (.callNotFound target) w') ↔
        ∀ k, s ≤ k → ¬ code.CallAt md target k) ∧
      (∀ err w', seekArguments md target w = .error err w' →
        err = .callNotFound target ∧ w'.cursor.position = code.length) ∧
      ((seekArguments md target).after w).cursor.code = code := by
  intro code s
  obtain ⟨k, w₂, ⟨⟨hahead, hcall⟩, -⟩, hseek, hcursor⟩ | ⟨hnone, w₂, hseek, hcursor⟩ :=
    seekCall_cases md target w
  · have hk : w₂.cursor.position = k := by rw [hcursor]
    have hcode : w₂.cursor.code = code := by rw [hcursor]
    have ⟨i, m, hi, hfamily, hmethod, _⟩ := hcall
    have hcallee : code[k]?.bind (·.callee?) = some m := by
      rw [hi]
      exact Instruction.callee?_eq_some.2 ⟨hfamily, hmethod⟩
    obtain ⟨answer, w', hrun, hstart, hkept, hplace⟩ :=
      seekArguments_of_seekCall hseek hk (hcode ▸ hcallee)
    rw [hcode] at hstart hkept
    refine ⟨fun w₁ c hseek₁ hc => ?_, ?_, fun err w₁ herror => ?_, ?_⟩
    · cases hseek.symm.trans hseek₁
      obtain rfl : k = c := Int.ofNat_inj.1 (hk.symm.trans hc)
      refine ⟨m, answer, w', hcallee, hrun, fun a => ⟨fun ha => ha ▸ hstart, hstart.unique⟩, ?_⟩
      refine ⟨?_, ?_, ?_⟩
      · rintro i rfl
        exact hplace
      · rintro rfl
        exact hplace
      · rintro rfl
        exact hplace
    · refine iff_of_false ?_ fun hall => hall k hahead hcall
      rintro ⟨w₁, herror⟩
      cases hrun.symm.trans herror
    · cases hrun.symm.trans herror
    · rw [after_of_ok hrun, hkept]
  · have hrun : seekArguments md target w = .error (.callNotFound target) w₂ := by
      rw [seekArguments, bind_of_error hseek]
    refine ⟨fun w₁ c hseek₁ => ?_, iff_of_true ⟨w₂, hrun⟩ hnone, fun err w₁ herror => ?_, ?_⟩
    · cases hseek.symm.trans hseek₁
    · cases hrun.symm.trans herror
      exact ⟨rfl, by rw [hcursor]; rfl⟩
    · rw [after_of_error hrun, hcursor]

/-- A call of the method of two numbers, with a conditional branch between the pushes. -/
def overBranch : Workspace Unit where
  cursor := Cursor.ofCode
    [.ldnull, .ldarg 0, .ldarg 1, .branch .brtrue ⟨0⟩, .ldcI4 3, .call maxAndAbs ⟨0⟩]
  own := ()

/-- A call of the method with one number in front of it. -/
def lackingOne : Workspace Unit where
  cursor := Cursor.ofCode [.ldcI4 3, .call maxAndAbs ⟨0⟩]
  own := ()

/-- The branch takes one of the values, so the arguments start further in front. With one value too
few the start is not found. -/
theorem seekArguments_exact_overBranch :
    let target : MethodPattern := { declaring := .object, name := ⟨"Max", by decide⟩ }
    (∃ w', seekArguments maxAndAbs target overBranch = .ok (.found 1) w' ∧
        w'.cursor.position = 1) ∧
      (∃ w', seekArguments maxAndAbs target lackingOne = .ok .notFound w' ∧
        w'.cursor.position = 1 ∧ w'.cursor.failure.isSome = true) := by
  intro target
  constructor
  · obtain ⟨m, answer, w', hcallee, hrun, hanswer, hfound, -⟩ :=
      (seekArguments_exact maxAndAbs target overBranch).1 _ 5 rfl rfl
    obtain rfl : ⟨0⟩ = m := Option.some.inj hcallee
    have hgreatest : ∀ j < 5, overBranch.cursor.code.netBetween j 5 = 2 → j ≤ 1 := by decide
    obtain rfl := (hanswer (.found 1)).2
      ⟨by decide, ⟨by decide, by decide⟩, fun j hj => hgreatest j hj.1 hj.2⟩
    exact ⟨w', hrun, hfound 1 rfl⟩
  · obtain ⟨m, answer, w', hcallee, hrun, hanswer, -, -, hstuck⟩ :=
      (seekArguments_exact maxAndAbs target lackingOne).1 _ 1 rfl rfl
    obtain rfl : ⟨0⟩ = m := Option.some.inj hcallee
    have hnone : ∀ j < 1, lackingOne.cursor.code.netBetween j 1 ≠ 2 := by decide
    obtain rfl := (hanswer .notFound).2 ⟨by decide, hnone⟩
    exact ⟨w', hrun, hstuck rfl⟩

end Edit

end Weaving
