import Weaving.Proofs.Push

/-!
# Pushing is all or nothing

A failure to push arguments, or to push them and call a method, leaves the cursor exactly as it was,
and the error is the one that the work itself raised, never one of undoing it (`pushes_atomic`). It
is the error of the first argument that cannot be pushed (`RaisedByArgument`) or that of choosing
the overload (`RaisedByChoice`). There is one more way to fail: a call without arguments has nothing
to push, so where instructions cannot be inserted the call itself is the first to notice
(`pushCall_before_code`).
-/

namespace Weaving

/-- Every argument is pushed by at least one instruction. -/
theorem Argument.length_le_of_compileEach {md : Metadata} {context : EditedMethod}
    {as : List Argument} {block : Code} {types : List (ValueType TypeRef)}
    (h : Argument.compileEach md context as = .ok (block, types)) : as.length ≤ block.length := by
  have hclosed : CodeClosed md fun as block => as.length ≤ block.length := by
    refine ⟨Nat.le_refl 0, ?_, ?_, ?_, ?_⟩
    · intro a as block blocks h₁ h₂
      simp only [List.length_append, List.length_cons, List.length_nil] at h₁ ⊢
      omega
    · intro a i _
      exact Nat.le_refl 1
    · intro a f _
      simp
    · intro m as block type _ _
      simp
  exact hclosed.of_compileEach as h

namespace Edit

variable {σ : Type}

/-- Pushing the arguments stops at one of them: those before it are pushed, and it raises the
error. -/
def RaisedByArgument (md : Metadata) (context : EditedMethod) (as : List Argument)
    (w : Workspace σ) (err : Error) : Prop :=
  ∃ before a rest types w₁ w₂, as = before ++ a :: rest ∧
    pushEach md context before w = .ok types w₁ ∧ pushOne md context a w₁ = .error err w₂

/-- All arguments are pushed, and choosing the overload for their types raises the error. -/
def RaisedByChoice (md : Metadata) (context : EditedMethod) (t : TypeRef) (name : MemberName)
    (as : List Argument) (w : Workspace σ) (err : Error) : Prop :=
  ∃ types w₁, pushEach md context as w = .ok types w₁ ∧
    md.resolveOverload t name types = .error err

section
variable {md : Metadata} {context : EditedMethod}

/-- Pushing arguments fails with the error of the first that cannot be pushed. -/
theorem raisedByArgument_of_pushEach {as : List Argument} {w w' : Workspace σ} {err : Error}
    (h : pushEach md context as w = .error err w') : RaisedByArgument md context as w err := by
  induction as generalizing w with
  | nil => cases h
  | cons a rest ih =>
    rw [pushEach] at h
    rcases bind_eq_error.1 h with h | ⟨type, w₁, ha, h⟩
    · exact ⟨[], a, rest, [], w, w', rfl, rfl, h⟩
    · rcases bind_eq_error.1 h with h | ⟨types, w₂, -, h⟩
      · obtain ⟨before, b, rest, types, w₂, w₃, rfl, hbefore, hb⟩ := ih h
        refine ⟨a :: before, b, rest, type :: types, w₂, w₃, rfl, ?_, hb⟩
        rw [pushEach, bind_of_ok ha, bind_of_ok hbefore]
        rfl
      · cases h

/-- Where a call can be inserted, the insertion and what follows it do not fail. -/
theorem insertCall_error {w w' : Workspace σ} {m : MethodRef} {err : Error}
    (h : (do emit [.call md m]; record (.callInserted m); return m : Edit σ MethodRef) w =
      .error err w') :
    ¬ w.cursor.CanInsert ∧
      err = .positionOutOfRange w.cursor.position w.cursor.length := by
  by_cases hins : w.cursor.CanInsert
  · rw [bind_of_ok (emit_of_canInsert [.call md m] hins)] at h
    cases h
  · rw [bind_of_error (emit_of_not_canInsert [.call md m] hins)] at h
    cases h
    exact ⟨hins, rfl⟩

/-- Where nothing can be inserted, only an empty list of arguments can be pushed. -/
theorem eq_nil_of_pushEach {as : List Argument} {w w' : Workspace σ}
    {types : List (ValueType TypeRef)} (h : pushEach md context as w = .ok types w')
    (hins : ¬ w'.cursor.CanInsert) : as = [] ∧ types = [] ∧ w'.cursor = w.cursor := by
  obtain ⟨block, hcompile, hblock⟩ := (pushEach_implements md context as).ok h
  have hnil : block = [] := hblock.2.resolve_right fun hins' => hins (hblock.canInsert hins')
  subst hnil
  have has : as = [] :=
    List.length_eq_zero_iff.1 (Nat.le_zero.1 (Argument.length_le_of_compileEach hcompile))
  subst has
  cases hcompile
  exact ⟨rfl, rfl, hblock.1.trans w.cursor.splice_nil⟩

/-- A call fails with the error of an argument, with that of the choice of the overload, or, when
there is nothing to push and no place to insert the call, with that of the position. -/
theorem pushCall_error_cases {t : TypeRef} {name : MemberName} {as : List Argument}
    {w w' : Workspace σ} {err : Error} (h : pushCall md context t name as w = .error err w') :
    RaisedByArgument md context as w err ∨ RaisedByChoice md context t name as w err ∨
      (as = [] ∧ (∃ m, md.resolveOverload t name [] = .ok m) ∧ ¬ w.cursor.CanInsert ∧
        err = .positionOutOfRange w.cursor.position w.cursor.length) := by
  obtain ⟨-, w₁, hrun⟩ := (pushEach_call_implements md context t name as).of_allOrNothing_error h
  rcases bind_eq_error.1 hrun with hpush | ⟨types, w₂, hpush, hrest⟩
  · exact .inl (raisedByArgument_of_pushEach hpush)
  · cases hm : md.resolveOverload t name types with
    | error err' =>
      rw [hm] at hrest
      cases hrest
      exact .inr (.inl ⟨types, _, hpush, hm⟩)
    | ok m =>
      rw [hm] at hrest
      -- only inserting the call is left to fail, and where it fails no argument was inserted either
      obtain ⟨hins, herr⟩ := insertCall_error hrest
      obtain ⟨rfl, rfl, hcursor⟩ := eq_nil_of_pushEach hpush hins
      rw [hcursor] at hins herr
      exact .inr (.inr ⟨rfl, ⟨m, hm⟩, hins, herr⟩)

end

/-- Pushing arguments, with or without a call, is all or nothing. After a failure the cursor is the
one from before, and the error is that of an argument or of the choice of the overload. A call
without arguments may also fail because it cannot be inserted at the position. -/
theorem pushes_atomic (md : Metadata) (context : EditedMethod) (t : TypeRef) (name : MemberName)
    (as : List Argument) (w : Workspace σ) :
    (∀ err w', pushArguments md context as w = .error err w' →
      w'.cursor = w.cursor ∧ RaisedByArgument md context as w err) ∧
    (∀ err w', pushCall md context t name as w = .error err w' →
      w'.cursor = w.cursor ∧
        (RaisedByArgument md context as w err ∨ RaisedByChoice md context t name as w err ∨
          (as = [] ∧ (∃ m, md.resolveOverload t name [] = .ok m) ∧ ¬ w.cursor.CanInsert ∧
            err = .positionOutOfRange w.cursor.position w.cursor.length))) := by
  refine ⟨fun err w' h => ?_, fun err w' h => ?_⟩
  · obtain ⟨hcursor, w₁, hrun⟩ := (pushEach_implements md context as).of_allOrNothing_error h
    exact ⟨hcursor, raisedByArgument_of_pushEach hrun⟩
  · have hcall := pushEach_call_implements (σ := σ) md context t name as
    exact ⟨(hcall.of_allOrNothing_error h).1, pushCall_error_cases h⟩

/-! ### Failures of each kind -/

/-- A type with one method, which is static and takes nothing. -/
def oneStatic : Metadata where
  types := [{ name := .object, base := none, attributes := .ofBits _ 0x1, methods := [⟨0⟩] }]
  methods :=
    [{ declaring := ⟨0⟩, name := .constructor, signature := ⟨[], none⟩, generics := [],
       attributes := .ofBits _ 0x16 }]

/-- The cursor on the only instruction of some code. -/
def onReturn : Workspace Unit where
  cursor := { Cursor.ofCode [{ opcode := .ret }] with position := 0 }
  own := ()

/-- A static method has no receiver to push, and the number pushed before it was asked for is
removed again. The same happens to a number that no overload takes. -/
theorem pushes_atomic_oneStatic :
    (∃ w', pushArguments oneStatic ⟨⟨0⟩, []⟩ [.literal (.int32 1), .this] onReturn =
        .error (.staticContext ⟨0⟩) w' ∧ w'.cursor = onReturn.cursor ∧
      RaisedByArgument oneStatic ⟨⟨0⟩, []⟩ [.literal (.int32 1), .this] onReturn
        (.staticContext ⟨0⟩)) ∧
    (∃ w', pushCall oneStatic ⟨⟨0⟩, []⟩ ⟨0⟩ .constructor [.literal (.int32 1)] onReturn =
        .error (.missingOverload ⟨0⟩ .constructor [.base .int32]) w' ∧
      w'.cursor = onReturn.cursor) := by
  have hpush := pushes_atomic oneStatic ⟨⟨0⟩, []⟩ ⟨0⟩ .constructor [.literal (.int32 1), .this]
    onReturn
  have hcall := pushes_atomic oneStatic ⟨⟨0⟩, []⟩ ⟨0⟩ .constructor [.literal (.int32 1)] onReturn
  exact ⟨⟨_, rfl, hpush.1 _ _ rfl⟩, ⟨_, rfl, (hcall.2 _ _ rfl).1⟩⟩

/-- The cursor in front of code that has no instruction yet. -/
def beforeCode : Workspace Unit where
  cursor := Cursor.ofCode []
  own := ()

/-- In front of the code a call without arguments fails although no argument and no choice of an
overload does. -/
theorem pushCall_before_code :
    ∃ w', pushCall oneStatic ⟨⟨0⟩, []⟩ ⟨0⟩ .constructor [] beforeCode =
        .error (.positionOutOfRange (-1) 0) w' ∧
      ¬ RaisedByArgument oneStatic ⟨⟨0⟩, []⟩ [] beforeCode (.positionOutOfRange (-1) 0) ∧
      ¬ RaisedByChoice oneStatic ⟨⟨0⟩, []⟩ ⟨0⟩ .constructor [] beforeCode
        (.positionOutOfRange (-1) 0) := by
  have hm : oneStatic.resolveOverload ⟨0⟩ .constructor [] = .ok ⟨0⟩ := rfl
  refine ⟨_, rfl, ?_, ?_⟩
  · rintro ⟨before, a, rest, -, -, -, has, -⟩
    cases before <;> cases has
  · rintro ⟨types, w₁, hpush, hchoice⟩
    cases hpush
    rw [hm] at hchoice
    cases hchoice

end Edit

end Weaving
