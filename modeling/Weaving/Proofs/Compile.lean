import Weaving.Argument.Resolve

/-!
# Compiling arguments

What pushing an argument inserts depends on the edited method and on the declarations, and not on
the code that it is inserted into. `Argument.compile` gives the instructions and the type, or the
error, without a cursor. Compiled code is put together in few ways, which `Argument.CodeClosed`
lists: a fact about compiled code is proved by one case for each of them
(`CodeClosed.of_compileEach`), and no proof follows the descriptions a second time.
-/

namespace Weaving

/-! ## The instructions of a description -/

/-- The instruction that pushes the receiver of the edited method, and its type. -/
def EditedMethod.compileReceiver (md : Metadata) (context : EditedMethod) :
    Except Error (Code × ValueType TypeRef) :=
  let method := md.method context.method
  if method.isStatic || (md.type method.declaring).attributes.isStaticClass then
    .error (.staticContext context.method)
  else
    .ok ([.ldthis], .ofClass method.declaring)

mutual

/-- The instructions that push the value that the description stands for, and its type. -/
def Argument.compile (md : Metadata) (context : EditedMethod) :
    Argument → Except Error (Code × ValueType TypeRef)
  | .this => context.compileReceiver md
  | .parameter index expected => do
    let (slot, type) ← context.findParameter md index expected
    return ([.ldarg slot], type)
  | .local choice => do
    let v ← context.findLocal md choice
    return ([.ldloc v.slot], v.type)
  | .field type name =>
    match md.findField type name with
    | none => .error (.missingField type name)
    | some f =>
      if (md.field f).isStatic then
        return ([.access md f .read], (md.field f).type)
      else do
        let (receiver, _) ← context.compileReceiver md
        return (receiver ++ [.access md f .read], (md.field f).type)
  | .literal value => do
    let (instruction, type) ← value.literal
    return ([instruction], type)
  | .call m arguments =>
    match (md.method m).signature.result with
    | none => .error (.voidArgument m)
    | some type => do
      let (block, _) ← Argument.compileEach md context arguments
      return (block ++ [.call md m], type)

/-- The instructions that push the values one after the other, and their types. -/
def Argument.compileEach (md : Metadata) (context : EditedMethod) :
    List Argument → Except Error (Code × List (ValueType TypeRef))
  | [] => return ([], [])
  | a :: rest => do
    let (block, type) ← Argument.compile md context a
    let (blocks, types) ← Argument.compileEach md context rest
    return (block ++ blocks, type :: types)

end

/-- The instructions that push the arguments and call the overload that takes them, and the
overload. -/
def Argument.compileCall (md : Metadata) (context : EditedMethod) (t : TypeRef)
    (name : MemberName) (arguments : List Argument) : Except Error (Code × MethodRef) := do
  let (block, types) ← Argument.compileEach md context arguments
  let m ← md.resolveOverload t name types
  return (block ++ [.call md m], m)

/-! ## The shape of compiled code -/

/-- The instructions that push a value that is there already: an argument, a local variable, a
constant, or a static field. -/
inductive Instruction.IsLeaf (md : Metadata) : Instruction → Prop
  | ldarg (slot : UInt16) : IsLeaf md (.ldarg slot)
  | ldloc (slot : UInt16) : IsLeaf md (.ldloc slot)
  | ldcI4 (value : Int32) : IsLeaf md (.ldcI4 value)
  | ldcI8 (value : Int64) : IsLeaf md (.ldcI8 value)
  | ldcR4 (value : Decimal.Binary32) : IsLeaf md (.ldcR4 value)
  | ldcR8 (value : Decimal.Binary64) : IsLeaf md (.ldcR8 value)
  | ldstr (value : String) : IsLeaf md (.ldstr value)
  | ldsfld {f : FieldRef} : (md.field f).isStatic = true → IsLeaf md (.access md f .read)

/-- A relation of arguments to code that holds of all the ways in which code that pushes arguments
is put together. -/
structure Argument.CodeClosed (md : Metadata) (P : List Argument → Code → Prop) : Prop where
  nil : P [] []
  cons : ∀ {a as block blocks}, P [a] block → P as blocks → P (a :: as) (block ++ blocks)
  leaf : ∀ {a i}, i.IsLeaf md → P [a] [i]
  ldfld : ∀ {a f}, (md.field f).isStatic = false → P [a] [.ldthis, .access md f .read]
  call : ∀ {m as block type}, (md.method m).signature.result = some type → P as block →
    P [.call m as] (block ++ [.call md m])

/-- A literal is pushed by one instruction. -/
theorem Operand.literal_isLeaf {md : Metadata} {value : Operand} {i : Instruction}
    {type : ValueType TypeRef} (h : value.literal = .ok (i, type)) : i.IsLeaf md := by
  cases value with
  | int32 v => cases h; exact .ldcI4 v
  | int64 v => cases h; exact .ldcI8 v
  | float32 v => cases h; exact .ldcR4 v
  | float64 v => cases h; exact .ldcR8 v
  | string v => cases h; exact .ldstr v
  | _ => cases h

/-- A receiver is loaded from the first slot. -/
theorem EditedMethod.compileReceiver_eq_ok {md : Metadata} {context : EditedMethod} {block : Code}
    {type : ValueType TypeRef} (h : context.compileReceiver md = .ok (block, type)) :
    block = [.ldthis] := by
  unfold compileReceiver at h
  dsimp only at h
  split at h
  · cases h
  · cases h
    rfl

/-- A sequence that may fail succeeds when both of its parts do. -/
theorem Error.bind_eq_ok {α β : Type} {x : Except Error α} {f : α → Except Error β} {b : β} :
    x >>= f = .ok b ↔ ∃ a, x = .ok a ∧ f a = .ok b := by
  cases x with
  | ok a => exact ⟨fun h => ⟨a, rfl, h⟩, fun ⟨_, ha, h⟩ => by cases ha; exact h⟩
  | error err => exact ⟨fun h => (by cases h), fun ⟨_, ha, _⟩ => by cases ha⟩

section
variable {md : Metadata} {context : EditedMethod} {P : List Argument → Code → Prop}

mutual

/-- What holds of all ways to put code together holds of the code of one argument. -/
theorem Argument.CodeClosed.of_compile (hP : CodeClosed md P) (a : Argument) {block : Code}
    {type : ValueType TypeRef} (h : a.compile md context = .ok (block, type)) : P [a] block := by
  cases a with
  | this =>
    rw [Argument.compile] at h
    rw [EditedMethod.compileReceiver_eq_ok h]
    exact hP.leaf (.ldarg 0)
  | parameter index expected =>
    rw [Argument.compile] at h
    obtain ⟨x, -, h⟩ := Error.bind_eq_ok.1 h
    cases h
    exact hP.leaf (.ldarg x.1)
  | «local» choice =>
    rw [Argument.compile] at h
    obtain ⟨v, -, h⟩ := Error.bind_eq_ok.1 h
    cases h
    exact hP.leaf (.ldloc v.slot)
  | field type name =>
    rw [Argument.compile] at h
    cases hfind : md.findField type name with
    | none => rw [hfind] at h; cases h
    | some f =>
      rw [hfind] at h
      dsimp only at h
      split at h
      · next hstatic => cases h; exact hP.leaf (.ldsfld hstatic)
      · next hstatic =>
        obtain ⟨x, hrec, h⟩ := Error.bind_eq_ok.1 h
        cases h
        rw [EditedMethod.compileReceiver_eq_ok hrec]
        exact hP.ldfld (by simpa using hstatic)
  | literal value =>
    rw [Argument.compile] at h
    obtain ⟨x, hlit, h⟩ := Error.bind_eq_ok.1 h
    cases h
    exact hP.leaf (Operand.literal_isLeaf hlit)
  | call m arguments =>
    rw [Argument.compile] at h
    cases hres : (md.method m).signature.result with
    | none => rw [hres] at h; cases h
    | some result =>
      rw [hres] at h
      obtain ⟨x, hargs, h⟩ := Error.bind_eq_ok.1 h
      cases h
      exact hP.call hres (hP.of_compileEach arguments hargs)

/-- What holds of all the ways in which code that pushes arguments is put together holds of the
code that the arguments compile to. -/
theorem Argument.CodeClosed.of_compileEach (hP : CodeClosed md P) (as : List Argument)
    {block : Code} {types : List (ValueType TypeRef)}
    (h : Argument.compileEach md context as = .ok (block, types)) : P as block := by
  cases as with
  | nil => cases h; exact hP.nil
  | cons a rest =>
    rw [Argument.compileEach] at h
    obtain ⟨x, ha, h⟩ := Error.bind_eq_ok.1 h
    obtain ⟨y, hrest, h⟩ := Error.bind_eq_ok.1 h
    cases h
    exact hP.cons (hP.of_compile a ha) (hP.of_compileEach rest hrest)

end

end

end Weaving
