import Weaving.Proofs.Push

/-!
# Stack balance of pushed arguments

Executing code only as far as the depth of the stack goes (`Code.depthAfter`), every argument adds
exactly one value and takes none of those that were there before, provided that every nested call is
given as many arguments as it takes (`Argument.Saturated`). A method that is chosen by the types of
the arguments takes as many values as there are arguments (`consumption_of_resolveOverload`), the
receiver of an instance method included, so a pushed call takes what was pushed for it and leaves
its result, if it has one (`pushes_balanced`).
-/

namespace Weaving

/-! ## Depth of the stack -/

/-- The number of values that a call leaves on the stack. -/
def Method.results (m : Method) : Nat := if m.signature.result.isSome then 1 else 0

/-- The numbers of values that the instruction takes from the stack and leaves on it. They are given
for calls and for the instructions that push arguments. -/
def Instruction.effect? (md : Metadata) (i : Instruction) : Option (Nat × Nat) :=
  match i.opcode with
  | .ldarg | .ldloc | .ldcI4 | .ldcI8 | .ldcR4 | .ldcR8 | .ldstr | .ldsfld => some (0, 1)
  | .ldfld => some (1, 1)
  | .call | .callvirt =>
    i.callee?.map fun m => ((md.method m).consumption, (md.method m).results)
  | _ => none

/-- The depth of the stack after the code, started at the given depth. There is none if the code
takes a value from below the floor, or if the effect of one of its instructions is not given. -/
def Code.depthAfter (md : Metadata) (floor : Nat) : Code → Nat → Option Nat
  | [], depth => some depth
  | i :: rest, depth =>
    match i.effect? md with
    | none => none
    | some (taken, left) =>
      if floor + taken ≤ depth then depthAfter md floor rest (depth - taken + left) else none

section
variable {md : Metadata} {floor depth : Nat}

/-- Code is run part by part. -/
theorem Code.depthAfter_append (a b : Code) :
    Code.depthAfter md floor (a ++ b) depth =
      (Code.depthAfter md floor a depth).bind (Code.depthAfter md floor b) := by
  induction a generalizing depth with
  | nil => rfl
  | cons i rest ih =>
    rw [List.cons_append, depthAfter, depthAfter]
    cases i.effect? md with
    | none => rfl
    | some effect =>
      dsimp only
      split
      · exact ih
      · rfl

/-- One instruction that finds what it takes above the floor. -/
theorem Code.depthAfter_singleton {i : Instruction} {taken left : Nat}
    (h : i.effect? md = some (taken, left)) (hfloor : floor + taken ≤ depth) :
    Code.depthAfter md floor [i] depth = some (depth - taken + left) := by
  rw [depthAfter, h]
  dsimp only
  rw [if_pos hfloor, depthAfter]

/-- An instruction that pushes an argument by itself takes nothing and leaves a value. -/
theorem Instruction.IsLeaf.effect?_eq {i : Instruction} (h : i.IsLeaf md) :
    i.effect? md = some (0, 1) := by
  cases h with
  | ldsfld hstatic => simp only [effect?, access, hstatic]
  | _ => rfl

/-- Reading a field of an instance takes the instance and leaves the value. -/
theorem Instruction.effect?_ldfld {f : FieldRef} (h : (md.field f).isStatic = false) :
    (Instruction.access md f .read).effect? md = some (1, 1) := by
  simp only [effect?, access, h]

/-- There are two opcodes for calls. -/
theorem Metadata.callOpcode_cases (md : Metadata) (m : MethodRef) :
    md.callOpcode m = .call ∨ md.callOpcode m = .callvirt := by
  unfold callOpcode
  dsimp only
  split
  · exact .inl rfl
  · split
    · exact .inr rfl
    · exact .inl rfl

@[simp] theorem Instruction.callee?_call (md : Metadata) (m : MethodRef) :
    (Instruction.call md m).callee? = some m := by
  rcases md.callOpcode_cases m with hop | hop
  · simp [call, callee?, hop, Opcode.isCall, Operand.method?]
  · simp [call, callee?, hop, Opcode.isCall, Operand.method?]

/-- A call takes what its method consumes, whichever opcode it needs. -/
theorem Instruction.effect?_call (m : MethodRef) :
    (Instruction.call md m).effect? md =
      some ((md.method m).consumption, (md.method m).results) := by
  have hop : (Instruction.call md m).opcode = .call ∨ (Instruction.call md m).opcode = .callvirt :=
    md.callOpcode_cases m
  rcases hop with hop | hop
  · rw [effect?, hop, callee?_call]
    rfl
  · rw [effect?, hop, callee?_call]
    rfl

end

/-! ## Balance of compiled arguments -/

mutual

/-- Every call in the description has as many arguments as its method takes. -/
def Argument.Saturated (md : Metadata) : Argument → Prop
  | .call m arguments =>
    arguments.length = (md.method m).consumption ∧ Argument.SaturatedEach md arguments
  | .this | .parameter _ _ | .local _ | .field _ _ | .literal _ => True

/-- Every call in the descriptions has as many arguments as its method takes. -/
def Argument.SaturatedEach (md : Metadata) : List Argument → Prop
  | [] => True
  | a :: rest => a.Saturated md ∧ Argument.SaturatedEach md rest

end

section
variable {md : Metadata} {context : EditedMethod}

/-- The code adds one value for each of the arguments, from every depth above the floor. -/
def Argument.Balanced (md : Metadata) (as : List Argument) (block : Code) : Prop :=
  Argument.SaturatedEach md as → ∀ floor depth, floor ≤ depth →
    Code.depthAfter md floor block depth = some (depth + as.length)

/-- Code for the first argument and code for the others is code for all of them. -/
theorem Argument.balanced_append {a : Argument} {as : List Argument} {block blocks : Code}
    (h₁ : Balanced md [a] block) (h₂ : Balanced md as blocks) :
    Balanced md (a :: as) (block ++ blocks) := by
  rintro ⟨ha, has⟩ floor depth hfloor
  have hfirst := h₁ ⟨ha, trivial⟩ floor depth hfloor
  have hrest := h₂ has floor (depth + 1) (by omega)
  rw [Code.depthAfter_append, hfirst]
  refine hrest.trans ?_
  rw [List.length_cons]
  congr 1
  omega

/-- One instruction that pushes a value is balanced. -/
theorem Argument.balanced_leaf {a : Argument} {i : Instruction} (hi : i.IsLeaf md) :
    Balanced md [a] [i] := by
  intro _ floor depth hfloor
  exact Code.depthAfter_singleton hi.effect?_eq hfloor

/-- Reading a field of the receiver is balanced. -/
theorem Argument.balanced_ldfld {a : Argument} {f : FieldRef}
    (hf : (md.field f).isStatic = false) : Balanced md [a] [.ldthis, .access md f .read] := by
  intro _ floor depth hfloor
  have hthis : Code.depthAfter md floor [.ldthis] depth = some (depth + 1) :=
    Code.depthAfter_singleton (Instruction.IsLeaf.ldarg 0).effect?_eq hfloor
  have hread : Code.depthAfter md floor [.access md f .read] (depth + 1) = some (depth + 1) :=
    Code.depthAfter_singleton (Instruction.effect?_ldfld hf) (by omega)
  calc Code.depthAfter md floor [.ldthis, .access md f .read] depth
      = (Code.depthAfter md floor [.ldthis] depth).bind
          (Code.depthAfter md floor [.access md f .read]) :=
        Code.depthAfter_append [.ldthis] [.access md f .read]
    _ = Code.depthAfter md floor [.access md f .read] (depth + 1) := by rw [hthis]; rfl
    _ = some (depth + 1) := hread

/-- A call takes exactly the values that were pushed for it. -/
theorem Argument.depthAfter_call {m : MethodRef} {as : List Argument} {block : Code}
    (hblock : Balanced md as block) (hsat : Argument.SaturatedEach md as)
    (hlen : as.length = (md.method m).consumption) {floor depth : Nat} (hfloor : floor ≤ depth) :
    Code.depthAfter md floor (block ++ [.call md m]) depth =
      some (depth + (md.method m).results) := by
  rw [Code.depthAfter_append, hblock hsat floor depth hfloor]
  refine (Code.depthAfter_singleton (Instruction.effect?_call m) (by omega)).trans ?_
  rw [hlen, Nat.add_sub_cancel]

/-- The code that arguments compile to is balanced. -/
theorem Argument.balanced_of_compileEach {as : List Argument} {block : Code}
    {types : List (ValueType TypeRef)}
    (h : Argument.compileEach md context as = .ok (block, types)) : Balanced md as block := by
  have hclosed : CodeClosed md (Balanced md) := by
    refine ⟨?_, balanced_append, balanced_leaf, balanced_ldfld, ?_⟩
    · intro _ floor depth _
      rfl
    · rintro m as block type hresult hblock ⟨⟨hlen, hsat⟩, -⟩ floor depth hfloor
      rw [depthAfter_call hblock hsat hlen hfloor, Method.results, hresult]
      rfl
  exact hclosed.of_compileEach as h

/-- There is one type for each argument. -/
theorem Argument.length_types_of_compileEach {as : List Argument} {block : Code}
    {types : List (ValueType TypeRef)}
    (h : Argument.compileEach md context as = .ok (block, types)) :
    types.length = as.length := by
  induction as generalizing block types with
  | nil => cases h; rfl
  | cons a rest ih =>
    rw [Argument.compileEach] at h
    obtain ⟨x, -, h⟩ := Error.bind_eq_ok.1 h
    obtain ⟨y, hrest, h⟩ := Error.bind_eq_ok.1 h
    cases h
    rw [List.length_cons, List.length_cons, ih hrest]

/-- An overload that takes arguments of the types consumes one value for each of them. The receiver
of an instance method is the first of the arguments and no parameter. -/
theorem Metadata.consumption_of_mem_overloads {t : TypeRef} {name : MemberName}
    {types : List (ValueType TypeRef)} {m : MethodRef} (h : m ∈ md.overloads t name types) :
    (md.method m).consumption = types.length := by
  have hfits := (List.mem_filter.1 h).2
  dsimp only at hfits
  unfold Method.consumption Signature.consumption
  cases hstatic : (md.method m).isStatic with
  | true =>
    rw [hstatic, if_pos rfl] at hfits
    rw [eq_of_beq hfits]
    rfl
  | false =>
    rw [hstatic, if_neg Bool.false_ne_true] at hfits
    cases types with
    | nil => cases hfits
    | cons receiver rest =>
      rw [← eq_of_beq hfits]
      rfl

/-- The method that is chosen is one of the overloads. -/
theorem Metadata.mem_overloads_of_resolveOverload {t : TypeRef} {name : MemberName}
    {types : List (ValueType TypeRef)} {m : MethodRef}
    (h : md.resolveOverload t name types = .ok m) : m ∈ md.overloads t name types := by
  unfold resolveOverload at h
  split at h
  · cases h
  · next m' hm =>
    cases h
    rw [hm]
    exact List.mem_singleton_self m
  · cases h

/-- The method that is chosen takes one value for each of the types. -/
theorem Metadata.consumption_of_resolveOverload {t : TypeRef} {name : MemberName}
    {types : List (ValueType TypeRef)} {m : MethodRef}
    (h : md.resolveOverload t name types = .ok m) :
    (md.method m).consumption = types.length :=
  consumption_of_mem_overloads (mem_overloads_of_resolveOverload h)

end

namespace Edit

variable {σ : Type}

/-- The instructions inserted for arguments take nothing from the stack below the depth `D` at which
they start, and leave one value for each argument, of which the types are returned. The
instructions inserted for a call end with the call of the chosen method. It takes exactly the values
that were pushed for it, and what remains is its result, if it has one. -/
theorem pushes_balanced (md : Metadata) (context : EditedMethod) (t : TypeRef) (name : MemberName)
    (as : List Argument) (w : Workspace σ) {p : Nat} (hp : w.cursor.position = p)
    (hsat : Argument.SaturatedEach md as) :
    (∀ types w', pushArguments md context as w = .ok types w' →
      types.length = as.length ∧
      ∃ block, w'.cursor.code = w.cursor.code.insertAt p block ∧
        ∀ D, Code.depthAfter md D block D = some (D + as.length)) ∧
    (∀ m w', pushCall md context t name as w = .ok m w' →
      (md.method m).consumption = as.length ∧
      ∃ pushes, w'.cursor.code = w.cursor.code.insertAt p (pushes ++ [.call md m]) ∧
        (∀ D, Code.depthAfter md D pushes D = some (D + as.length)) ∧
        ∀ D, Code.depthAfter md D (pushes ++ [.call md m]) D =
          some (D + if (md.method m).signature.result.isSome then 1 else 0)) := by
  have hindex : w.cursor.position.toNat = p := by omega
  refine ⟨fun types w' h => ?_, fun m w' h => ?_⟩
  · obtain ⟨block, hcompile, hcursor, -⟩ :=
      (pushEach_implements md context as).of_allOrNothing_ok h
    have hbalanced := Argument.balanced_of_compileEach hcompile hsat
    refine ⟨Argument.length_types_of_compileEach hcompile, block, ?_, fun D => ?_⟩
    · rw [hcursor, ← hindex]
      rfl
    · exact hbalanced D D (Nat.le_refl D)
  · obtain ⟨block, hcompile, hcursor, -⟩ :=
      (pushEach_call_implements md context t name as).of_allOrNothing_ok h
    obtain ⟨⟨pushes, types⟩, hpushes, hcompile⟩ := Error.bind_eq_ok.1 hcompile
    obtain ⟨m', hm, hcompile⟩ := Error.bind_eq_ok.1 hcompile
    cases hcompile
    have hbalanced := Argument.balanced_of_compileEach hpushes
    have harity : (md.method m).consumption = as.length :=
      (Metadata.consumption_of_resolveOverload hm).trans
        (Argument.length_types_of_compileEach hpushes)
    refine ⟨harity, pushes, ?_, fun D => ?_, fun D => ?_⟩
    · rw [hcursor, ← hindex]
      rfl
    · exact hbalanced hsat D D (Nat.le_refl D)
    · exact Argument.depthAfter_call hbalanced hsat harity.symm (Nat.le_refl D)

/-- A type with a static method that takes two numbers and gives one. -/
def sumOnly : Metadata where
  types := [{ name := .object, base := none, attributes := .ofBits _ 0x1, methods := [⟨0⟩] }]
  methods :=
    [{ declaring := ⟨0⟩, name := .constructor,
       signature := ⟨[.base .int32, .base .int32], some (.base .int32)⟩, generics := [],
       attributes := .ofBits _ 0x16 }]

/-- The cursor past the end of code that has no instruction. -/
def emptyBody : Workspace Unit where
  cursor := { Cursor.ofCode [] with position := 0 }
  own := ()

/-- A sum and a number. -/
def sumAndNumber : List Argument :=
  [.call ⟨0⟩ [.literal (.int32 1), .literal (.int32 2)], .literal (.int32 3)]

/-- Pushing a sum and a number leaves two values, and pushing the sum of the two leaves one. -/
theorem pushes_balanced_sumOnly :
    (∃ w' block, pushArguments sumOnly ⟨⟨0⟩, []⟩ sumAndNumber emptyBody =
        .ok [.base .int32, .base .int32] w' ∧
      w'.cursor.code = block ∧ block.length = 4 ∧
      ∀ D, Code.depthAfter sumOnly D block D = some (D + 2)) ∧
    ∃ w' pushes, pushCall sumOnly ⟨⟨0⟩, []⟩ ⟨0⟩ .constructor sumAndNumber emptyBody = .ok ⟨0⟩ w' ∧
      w'.cursor.code = pushes ++ [.call sumOnly ⟨0⟩] ∧
      ∀ D, Code.depthAfter sumOnly D (pushes ++ [.call sumOnly ⟨0⟩]) D = some (D + 1) := by
  obtain ⟨hload, hcall⟩ := pushes_balanced sumOnly ⟨⟨0⟩, []⟩ ⟨0⟩ .constructor sumAndNumber emptyBody
    (p := 0) rfl ⟨⟨rfl, trivial, trivial, trivial⟩, trivial, trivial⟩
  have hinsert : ∀ block : Code, emptyBody.cursor.code.insertAt 0 block = block :=
    fun block => List.append_nil block
  obtain ⟨-, block, hcode, hdepth⟩ := hload [.base .int32, .base .int32] _ rfl
  obtain ⟨-, pushes, hcode', -, hdepth'⟩ := hcall ⟨0⟩ _ rfl
  rw [hinsert] at hcode hcode'
  exact ⟨⟨_, block, rfl, hcode, hcode ▸ rfl, hdepth⟩, _, pushes, rfl, hcode', hdepth'⟩

end Edit

end Weaving
