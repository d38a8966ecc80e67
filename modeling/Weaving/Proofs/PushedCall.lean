import Weaving.Proofs.Declarations
import Weaving.Proofs.Match
import Weaving.Proofs.StackBalance
import Weaving.Proofs.StackWalk

/-!
# Pushed calls and the walk back from them

Pushing a call and walking back from it are written apart: the one follows the descriptions of the
arguments, the other adds up nominal stack effects, by which every call leaves as many values as it
takes. They agree when every nested call is given one argument (`Argument.Unary`): compiled code
then yields one value for each argument (`Argument.yields_of_compileEach`), and the chosen overload
takes that many. From the pushed call, the walk comes back to where the first instruction was
inserted (`Edit.seekArguments_of_pushCall`).
-/

namespace Weaving

/-! ## Nested calls of one argument -/

mutual

/-- Every call in the description has one argument. -/
def Argument.Unary : Argument → Prop
  | .call _ arguments => arguments.length = 1 ∧ Argument.UnaryEach arguments
  | .this | .parameter _ _ | .local _ | .field _ _ | .literal _ => True

/-- Every call in the descriptions has one argument. -/
def Argument.UnaryEach : List Argument → Prop
  | [] => True
  | a :: rest => a.Unary ∧ Argument.UnaryEach rest

end

section
variable {md : Metadata} {context : EditedMethod}

/-- An instruction that loads a value without popping any leaves one more on the stack. -/
theorem Instruction.IsLeaf.netEffect_eq {i : Instruction} (h : i.IsLeaf md) :
    i.opcode.netEffect = 1 := by
  cases h with
  | ldsfld hstatic => simp only [access, hstatic]; rfl
  | _ => rfl

/-- Reading a field of an instance replaces the instance by the value. -/
theorem Instruction.netEffect_ldfld {f : FieldRef} (h : (md.field f).isStatic = false) :
    (Instruction.access md f .read).opcode.netEffect = 0 := by
  simp only [access, h]
  rfl

/-- An instruction that loads a value yields it by itself. -/
theorem Instruction.IsLeaf.yields {i : Instruction} (h : i.IsLeaf md) : Code.Yields [i] 1 := by
  have hnet := h.netEffect_eq
  have hall := Code.Yields.nil.concat (i := i) (by omega)
  rwa [hnet] at hall

/-- Compiled arguments yield one value each. -/
theorem Argument.yields_of_compileEach {as : List Argument} {block : Code}
    {types : List (ValueType TypeRef)}
    (h : Argument.compileEach md context as = .ok (block, types)) (hunary : UnaryEach as) :
    block.Yields as.length := by
  have hclosed : CodeClosed md fun as block => UnaryEach as → block.Yields as.length :=
    { nil := fun _ => .nil
      cons := by
        rintro a as block blocks hblock hblocks ⟨ha, has⟩
        have hlength : ((a :: as).length : Int) = 1 + as.length := by
          rw [List.length_cons]
          omega
        rw [hlength]
        exact (hblock ⟨ha, trivial⟩).append (hblocks has) Int.one_pos
      leaf := fun hi _ => hi.yields
      ldfld := by
        intro a f hf _
        have hthis : Instruction.IsLeaf md .ldthis := .ldarg 0
        exact hthis.yields.concat_neutral Int.one_pos (Instruction.netEffect_ldfld hf)
      call := by
        rintro m as block type - hblock ⟨⟨hone, has⟩, -⟩
        have hyields := hblock has
        rw [hone] at hyields
        exact hyields.concat_neutral Int.one_pos
          (Instruction.netEffect_of_callee? (Instruction.callee?_call md m)) }
  exact hclosed.of_compileEach as h hunary

end

/-! ## Finding the pushed call -/

/-- A method that was chosen by the name of its type and its own is found by these names. -/
theorem Metadata.MethodsOwned.admits_of_resolveOverload {md : Metadata} (h : md.MethodsOwned)
    {t : TypeRef} {name : MemberName} {types : List (ValueType TypeRef)} {m : MethodRef}
    (hm : md.resolveOverload t name types = .ok m) :
    MethodPattern.admits md { declaring := (md.type t).name, name } m = true := by
  have hgroup := (List.mem_filter.1 (mem_overloads_of_resolveOverload hm)).1
  obtain ⟨hlisted, hname⟩ := List.mem_filter.1 hgroup
  obtain ⟨-, howner⟩ := h t m hlisted
  simp [MethodPattern.admits, howner, eq_of_beq hname]

/-- A forward search from an instruction that satisfies the predicate stays there. -/
theorem Cursor.search_forward_of_here {c : Cursor} {holds : Instruction → Bool} {index : Nat}
    {i : Instruction} (hposition : c.position = index) (hi : c.code[index]? = some i)
    (hholds : holds i = true) : c.search .forward holds = { c with failure := none } := by
  have hstart : c.searchStart = index := by
    rw [searchStart, hposition]
    omega
  have hlt : index < c.length := (List.getElem?_eq_some_iff.1 hi).1
  have hhere : c.code[index]?.any holds = true := by rw [hi]; exact hholds
  rw [search, hstart, nearest?_of_lt .forward hlt, if_pos hhere]
  dsimp only
  rw [hposition]

/-- The last of the instructions that are inserted is right in front of the rest. -/
theorem Code.insertAt_concat (code : Code) (index : Nat) (more : Code) (i : Instruction) :
    code.insertAt index (more ++ [i]) = code.take index ++ more ++ i :: code.drop index := by
  simp [insertAt]

/-- One step back from behind inserted instructions is on the last of them. -/
theorem Cursor.advance_splice_concat {c : Cursor} {p : Nat} (hp : c.position = p)
    (hinsert : c.CanInsert) (more : Code) (i : Instruction) :
    (c.splice (more ++ [i])).advance (-1) =
      { c with
        code := c.code.insertAt p (more ++ [i])
        position := (p + more.length : Nat) } := by
  have hposition : (c.splice (more ++ [i])).position = p + more.length + 1 := by
    dsimp only [splice]
    rw [hp, List.length_append, List.length_singleton]
    omega
  have hlength : (c.splice (more ++ [i])).length = c.length + more.length + 1 := by
    rw [length_splice, List.length_append, List.length_singleton]
    omega
  have hle := hinsert.2
  rw [advance_of_range (p + more.length : Nat) (by omega) (by omega) (by omega), splice, put, hp,
    Int.toNat_natCast]

namespace Edit

variable {σ : Type} {md : Metadata} {target : MethodPattern} {w : Workspace σ}

/-- From a call that the pattern admits, the nearest one is that call. -/
theorem seekCall_of_here {index : Nat} {i : Instruction} {m : MethodRef}
    (hposition : w.cursor.position = index) (hi : w.cursor.code[index]? = some i)
    (hcallee : i.callee? = some m) (hadmits : target.admits md m = true) :
    seekCall md target w = .ok ()
      { w with
        cursor := { w.cursor with failure := none }
        log := w.log ++ [.callFound target index] } := by
  have hmatch : i.callsMatch md target = true := by
    rw [Instruction.callsMatch, hcallee]
    exact hadmits
  have hsearch : search .forward (·.callsMatch md target) w =
      .ok () { w with cursor := { w.cursor with failure := none } } := by
    rw [search, bind_of_ok (cursor_apply w),
      Cursor.search_forward_of_here hposition hi hmatch]
    rfl
  have hvalid : ({ w.cursor with failure := none } : Cursor).isValid = true := by
    have hlt : index < w.cursor.length := (List.getElem?_eq_some_iff.1 hi).1
    unfold Cursor.isValid
    dsimp only
    rw [hposition]
    simpa [Cursor.length] using hlt
  rw [seekCall, bind_of_ok hsearch, bind_of_ok (cursor_apply _)]
  dsimp only
  rw [if_pos hvalid, hposition, Int.toNat_natCast]
  rfl

/-- From a call that the pattern admits, behind code that yields what the call takes, the walk goes
back over that code. -/
theorem seekArguments_of_here {pre block rest : Code} {call : Instruction} {m : MethodRef}
    (hcode : w.cursor.code = pre ++ block ++ call :: rest)
    (hposition : w.cursor.position = (pre ++ block).length)
    (hyields : block.Yields (md.method m).consumption) (hcallee : call.callee? = some m)
    (hadmits : target.admits md m = true) :
    ((md.method m).consumption ≠ 0 → ∃ w',
      seekArguments md target w = .ok (.found pre.length) w' ∧
      w'.cursor = { w.cursor with position := pre.length, failure := none }) ∧
    ((md.method m).consumption = 0 → ∃ w', seekArguments md target w = .ok .alreadySatisfied w' ∧
      w'.cursor = { w.cursor with failure := none }) := by
  have hat : w.cursor.code[(pre ++ block).length]? = some call := by
    rw [hcode, Code.getElem?_append_cons]
  have hseek := seekCall_of_here hposition hat hcallee hadmits
  obtain ⟨hfound, hsatisfied⟩ := seekArguments_of_yields hcode hyields hcallee hseek hposition
  exact ⟨hfound, fun hnone => ⟨_, hsatisfied hnone, rfl⟩⟩

/-- A pushed call inserts the compiled arguments and the call of the overload that takes them. One
step back is on the call. -/
theorem advance_of_pushCall {context : EditedMethod} {t : TypeRef} {name : MemberName}
    {as : List Argument} {m : MethodRef} {p : Nat} {w₁ : Workspace σ}
    (hp : w.cursor.position = p) (h : pushCall md context t name as w = .ok m w₁) :
    ∃ pushes types w₂, Argument.compileEach md context as = .ok (pushes, types) ∧
      md.resolveOverload t name types = .ok m ∧ p ≤ w.cursor.length ∧
      advance (-1) w₁ = .ok () w₂ ∧
      w₂.cursor.code = w.cursor.code.insertAt p (pushes ++ [.call md m]) ∧
      w₂.cursor.position = (p + pushes.length : Nat) := by
  obtain ⟨block, hcompile, hcursor, hinsert⟩ :=
    (pushEach_call_implements md context t name as).of_allOrNothing_ok h
  obtain ⟨⟨pushes, types⟩, hpushes, hcompile⟩ := Error.bind_eq_ok.1 hcompile
  obtain ⟨m', hm, hcompile⟩ := Error.bind_eq_ok.1 hcompile
  cases hcompile
  have hcan : w.cursor.CanInsert := by
    refine hinsert.resolve_left ?_
    exact List.append_ne_nil_of_right_ne_nil pushes (List.cons_ne_nil _ _)
  have hle : p ≤ w.cursor.length := by
    have := hcan.2
    omega
  have hback := Cursor.advance_splice_concat hp hcan pushes (.call md m)
  rw [← hcursor] at hback
  refine ⟨pushes, types, { w₁ with cursor := w₁.cursor.advance (-1) }, hpushes, hm, hle, rfl, ?_⟩
  rw [hback]
  exact ⟨rfl, rfl⟩

/-- After a call was pushed at the index `p`, one step back is on the call. From there, the start of
the arguments of the nearest call with these names is `p`, and a call without arguments is at its
start already. -/
theorem seekArguments_of_pushCall (ds : List Declaration) (context : EditedMethod) (t : TypeRef)
    (name : MemberName) (as : List Argument) (w : Workspace σ) {p : Nat}
    (hp : w.cursor.position = p) (hunary : Argument.UnaryEach as) :
    let md := Metadata.ofDeclarations ds
    let target : MethodPattern := { declaring := (md.type t).name, name }
    ∀ m w₁, pushCall md context t name as w = .ok m w₁ →
      ∃ w₂ pushes, advance (-1) w₁ = .ok () w₂ ∧
        w₂.cursor.code = w.cursor.code.insertAt p (pushes ++ [.call md m]) ∧
        w₂.cursor.position = (p + pushes.length : Nat) ∧
        w₂.cursor.instruction? = some (.call md m) ∧
        (as ≠ [] → ∃ w₃, seekArguments md target w₂ = .ok (.found p) w₃ ∧
          w₃.cursor = { w₂.cursor with position := p, failure := none }) ∧
        (as = [] → ∃ w₃, seekArguments md target w₂ = .ok .alreadySatisfied w₃ ∧
          w₃.cursor = { w₂.cursor with failure := none }) := by
  intro md target m w₁ hpush
  obtain ⟨pushes, types, w₂, hcompile, hm, hle, hback, hcode, hposition⟩ :=
    advance_of_pushCall hp hpush
  have hsplit := hcode.trans (Code.insertAt_concat w.cursor.code p pushes (.call md m))
  have hpre : (w.cursor.code.take p).length = p := List.length_take_of_le hle
  have hlast : w₂.cursor.position = (w.cursor.code.take p ++ pushes).length := by
    rw [List.length_append, hpre, hposition]
  -- The pushes yield as many values as there are arguments, and the chosen method takes as many.
  have harity : (md.method m).consumption = as.length :=
    (Metadata.consumption_of_resolveOverload hm).trans
      (Argument.length_types_of_compileEach hcompile)
  have hyields : pushes.Yields (md.method m).consumption := by
    rw [harity]
    exact Argument.yields_of_compileEach hcompile hunary
  have hnone : (md.method m).consumption = 0 ↔ as = [] := by
    rw [harity, List.length_eq_zero_iff]
  have hadmits : target.admits md m = true :=
    (Metadata.methodsOwned_ofDeclarations ds).admits_of_resolveOverload hm
  obtain ⟨hfound, hsatisfied⟩ :=
    seekArguments_of_here hsplit hlast hyields (Instruction.callee?_call md m) hadmits
  rw [hpre] at hfound
  refine ⟨w₂, pushes, hback, hcode, hposition, ?_, fun hne => hfound (mt hnone.1 hne),
    fun hnil => hsatisfied (hnone.2 hnil)⟩
  refine Cursor.instruction?_of_getElem? hlast ?_
  rw [hsplit, Code.getElem?_append_cons]

/-- The declarations of a type and of its two methods. -/
def declareMaxAndAbs : List Declaration :=
  .type (maxAndAbs.type ⟨0⟩).toTypeDecl :: maxAndAbs.methods.map .method

/-- The cursor within code. -/
def insideNested : Workspace Unit :=
  { nestedCall with cursor := nestedCall.cursor.advance 3 }

/-- The arguments of a call that was pushed between instructions start where it was pushed. -/
theorem seekArguments_of_pushCall_nested :
    ∃ w₁ w₂ w₃,
      pushCall (.ofDeclarations declareMaxAndAbs) ⟨⟨0⟩, []⟩ ⟨0⟩ ⟨"Max", by decide⟩
        [.call ⟨1⟩ [.literal (.int32 1)], .literal (.int32 2)] insideNested = .ok ⟨0⟩ w₁ ∧
      advance (-1) w₁ = .ok () w₂ ∧
      w₂.cursor.instruction? = some (.call (.ofDeclarations declareMaxAndAbs) ⟨0⟩) ∧
      seekArguments (.ofDeclarations declareMaxAndAbs)
        { declaring := .object, name := ⟨"Max", by decide⟩ } w₂ = .ok (.found 2) w₃ ∧
      w₃.cursor.position = 2 := by
  obtain ⟨w₁, hpush⟩ : ∃ w₁, pushCall (.ofDeclarations declareMaxAndAbs) ⟨⟨0⟩, []⟩ ⟨0⟩
      ⟨"Max", by decide⟩ [.call ⟨1⟩ [.literal (.int32 1)], .literal (.int32 2)] insideNested =
      .ok ⟨0⟩ w₁ := ⟨_, rfl⟩
  obtain ⟨w₂, pushes, hback, -, -, hcall, hfound, -⟩ :=
    seekArguments_of_pushCall declareMaxAndAbs ⟨⟨0⟩, []⟩ ⟨0⟩ ⟨"Max", by decide⟩
      [.call ⟨1⟩ [.literal (.int32 1)], .literal (.int32 2)] insideNested (p := 2) rfl
      ⟨⟨rfl, trivial, trivial⟩, trivial, trivial⟩ ⟨0⟩ w₁ hpush
  obtain ⟨w₃, hseek, hcursor⟩ := hfound (List.cons_ne_nil _ _)
  exact ⟨w₁, w₂, w₃, hpush, hback, hcall, hseek, by rw [hcursor]; rfl⟩

end Edit

end Weaving
