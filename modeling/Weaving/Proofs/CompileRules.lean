import Weaving.Proofs.Push

/-!
# The rules of compiling arguments

`Argument.Compiles` says what descriptions compile to by one rule for each case, in terms of the
declarations and of the edited method: which instruction, of which type, and which error comes
first. The compiler follows the rules and every result by the rules is the compiler's
(`Argument.compiles_iff`). Pushing arguments puts the result of the rules into the code at the
position, and can be done in parts (`Edit.pushInParts`).
-/

namespace Weaving

/-- The slots in front of those of the parameters: an instance method has its receiver there. -/
def EditedMethod.receiverSlots (md : Metadata) (context : EditedMethod) : Nat :=
  if (md.method context.method).isStatic then 0 else 1

/-- What the descriptions compile to in the edited method: code and the types of the values that it
pushes, or an error. -/
inductive Argument.Compiles (md : Metadata) (context : EditedMethod) :
    List Argument → Except Error (Code × List (ValueType TypeRef)) → Prop
  | nil : Compiles md context [] (.ok ([], []))
  | append {as bs block more types types'} :
      Compiles md context as (.ok (block, types)) → Compiles md context bs (.ok (more, types')) →
      Compiles md context (as ++ bs) (.ok (block ++ more, types ++ types'))
  /-- The error of the description in front comes first. -/
  | appendFront {as bs err} :
      Compiles md context as (.error err) → Compiles md context (as ++ bs) (.error err)
  | appendBehind {as bs compiled err} :
      Compiles md context as (.ok compiled) → Compiles md context bs (.error err) →
      Compiles md context (as ++ bs) (.error err)
  | this :
      (md.method context.method).isStatic = false →
      (md.type (md.method context.method).declaring).attributes.isStaticClass = false →
      Compiles md context [.this]
        (.ok ([{ opcode := .ldarg, operand := some (.argument 0) }],
          [.ofClass (md.method context.method).declaring]))
  | thisStatic :
      (md.method context.method).isStatic = true ∨
        (md.type (md.method context.method).declaring).attributes.isStaticClass = true →
      Compiles md context [.this] (.error (.staticContext context.method))
  | parameter {index type} {slot : UInt16} :
      (md.method context.method).signature.parameters[index]? = some type →
      slot.toNat = index + context.receiverSlots md →
      Compiles md context [.parameter index type]
        (.ok ([{ opcode := .ldarg, operand := some (.argument slot) }], [type]))
  | parameterMissing {index expected} :
      (md.method context.method).signature.parameters.length ≤ index →
      Compiles md context [.parameter index expected]
        (.error (.parameterOutOfRange index
          (md.method context.method).signature.parameters.length))
  | parameterMismatch {index expected found} :
      (md.method context.method).signature.parameters[index]? = some found → found ≠ expected →
      Compiles md context [.parameter index expected]
        (.error (.parameterTypeMismatch index expected found))
  /-- A slot is a 16-bit word. -/
  | parameterBeyond {index type} :
      (md.method context.method).signature.parameters[index]? = some type →
      65535 < index + context.receiverSlots md →
      Compiles md context [.parameter index type]
        (.error (.parameterOutOfRange index
          (md.method context.method).signature.parameters.length))
  /-- The first variable declared for the slot. -/
  | localSlot {before v behind} :
      context.locals = before ++ v :: behind → (∀ u ∈ before, u.slot ≠ v.slot) →
      Compiles md context [.local (.slot v.slot)]
        (.ok ([{ opcode := .ldloc, operand := some (.local v.slot) }], [v.type]))
  | localSlotMissing {n} :
      (∀ v ∈ context.locals, v.slot ≠ n) →
      Compiles md context [.local (.slot n)] (.error (.missingLocal (.slot n)))
  /-- The last variable whose type is listed so. -/
  | localType {before v behind} :
      context.locals = before ++ v :: behind →
      (∀ u ∈ behind, md.renderType u.type ≠ md.renderType v.type) →
      Compiles md context [.local (.ofType (md.renderType v.type))]
        (.ok ([{ opcode := .ldloc, operand := some (.local v.slot) }], [v.type]))
  | localTypeMissing {text} :
      (∀ v ∈ context.locals, md.renderType v.type ≠ text) →
      Compiles md context [.local (.ofType text)] (.error (.missingLocal (.ofType text)))
  | fieldMissing {type name} :
      md.findField type name = none →
      Compiles md context [.field type name] (.error (.missingField type name))
  | fieldStatic {type name f} :
      md.findField type name = some f → (md.field f).isStatic = true →
      Compiles md context [.field type name]
        (.ok ([{ opcode := .ldsfld, operand := some (.field f) }], [(md.field f).type]))
  | field {type name f receiver types} :
      md.findField type name = some f → (md.field f).isStatic = false →
      Compiles md context [.this] (.ok (receiver, types)) →
      Compiles md context [.field type name]
        (.ok (receiver ++ [{ opcode := .ldfld, operand := some (.field f) }], [(md.field f).type]))
  | fieldReceiver {type name f err} :
      md.findField type name = some f → (md.field f).isStatic = false →
      Compiles md context [.this] (.error err) → Compiles md context [.field type name] (.error err)
  | int32 {value} :
      Compiles md context [.literal (.int32 value)]
        (.ok ([{ opcode := .ldcI4, operand := some (.int32 value) }], [.base .int32]))
  | int64 {value} :
      Compiles md context [.literal (.int64 value)]
        (.ok ([{ opcode := .ldcI8, operand := some (.int64 value) }], [.base .int64]))
  | float32 {value} :
      Compiles md context [.literal (.float32 value)]
        (.ok ([{ opcode := .ldcR4, operand := some (.float32 value) }], [.base .float32]))
  | float64 {value} :
      Compiles md context [.literal (.float64 value)]
        (.ok ([{ opcode := .ldcR8, operand := some (.float64 value) }], [.base .float64]))
  | string {value} :
      Compiles md context [.literal (.string value)]
        (.ok ([{ opcode := .ldstr, operand := some (.string value) }], [.base .string]))
  | literalUnsupported {value} :
      (∀ v, value ≠ .int32 v) → (∀ v, value ≠ .int64 v) → (∀ v, value ≠ .float32 v) →
      (∀ v, value ≠ .float64 v) → (∀ v, value ≠ .string v) →
      Compiles md context [.literal value] (.error (.unsupportedLiteral value))
  /-- That there is no result is noticed before the arguments are looked at. -/
  | callVoid {m as} :
      (md.method m).signature.result = none →
      Compiles md context [.call m as] (.error (.voidArgument m))
  /-- A method without a receiver is called directly, and so is one that nothing overrides. -/
  | call {m as type block types} :
      (md.method m).signature.result = some type →
      (md.method m).isStatic = true ∨ (md.method m).attributes.isVirtual = false ∧
        (md.type (md.method m).declaring).isInterface = false →
      Compiles md context as (.ok (block, types)) →
      Compiles md context [.call m as]
        (.ok (block ++ [{ opcode := .call, operand := some (.method m) }], [type]))
  /-- The receiver of a virtual method, or of one of an interface, decides what is called. -/
  | callvirt {m as type block types} :
      (md.method m).signature.result = some type → (md.method m).isStatic = false →
      (md.method m).attributes.isVirtual = true ∨
        (md.type (md.method m).declaring).isInterface = true →
      Compiles md context as (.ok (block, types)) →
      Compiles md context [.call m as]
        (.ok (block ++ [{ opcode := .callvirt, operand := some (.method m) }], [type]))
  | callArguments {m as type err} :
      (md.method m).signature.result = some type → Compiles md context as (.error err) →
      Compiles md context [.call m as] (.error err)

/-! ## The compiler follows the rules -/

section
variable {md : Metadata} {context : EditedMethod}

/-- A description by itself compiles to what it compiles to in a list. -/
theorem Argument.compileEach_singleton (a : Argument) :
    Argument.compileEach md context [a] =
      (a.compile md context).map fun compiled => (compiled.1, [compiled.2]) := by
  rw [compileEach, compileEach]
  cases a.compile md context with
  | ok compiled => exact congrArg (fun block => Except.ok (block, _)) (List.append_nil _)
  | error err => rfl

/-- A list of descriptions compiles part by part: the blocks and the types follow each other. -/
theorem Argument.compileEach_append (as bs : List Argument) :
    Argument.compileEach md context (as ++ bs) = do
      let (block, types) ← Argument.compileEach md context as
      let (more, types') ← Argument.compileEach md context bs
      return (block ++ more, types ++ types') := by
  induction as with
  | nil =>
    rw [List.nil_append, compileEach]
    cases Argument.compileEach md context bs <;> rfl
  | cons a as ih =>
    rw [List.cons_append, compileEach, ih, compileEach]
    cases a.compile md context with
    | error err => rfl
    | ok compiled =>
      cases Argument.compileEach md context as with
      | error err => rfl
      | ok front =>
        cases Argument.compileEach md context bs with
        | error err => rfl
        | ok behind =>
          exact congrArg (fun block => Except.ok (block, _)) (List.append_assoc _ _ _).symm

/-- An instance field is read from the receiver. -/
theorem Argument.compileEach_field {type : TypeRef} {name : MemberName} {f : FieldRef}
    (hfind : md.findField type name = some f) (hinstance : (md.field f).isStatic = false) :
    Argument.compileEach md context [.field type name] =
      (Argument.compileEach md context [.this]).map fun compiled =>
        (compiled.1 ++ [{ opcode := .ldfld, operand := some (.field f) }],
          [(md.field f).type]) := by
  rw [compileEach_singleton, compileEach_singleton, compile, compile, hfind]
  simp only [hinstance, Instruction.access]
  cases context.compileReceiver md <;> rfl

/-- A method that has no receiver, or that nothing overrides, is called directly. -/
theorem Instruction.call_of_direct {m : MethodRef}
    (h : (md.method m).isStatic = true ∨ (md.method m).attributes.isVirtual = false ∧
      (md.type (md.method m).declaring).isInterface = false) :
    Instruction.call md m = { opcode := .call, operand := some (.method m) } := by
  rw [call, Metadata.callOpcode]
  rcases h with hstatic | ⟨hvirtual, hinterface⟩
  · simp only [hstatic, if_true]
  · simp only [hvirtual, hinterface, Bool.or_self, Bool.false_eq_true, if_false, ite_self]

/-- Any other method is called by its receiver. -/
theorem Instruction.call_of_virtual {m : MethodRef} (hinstance : (md.method m).isStatic = false)
    (h : (md.method m).attributes.isVirtual = true ∨
      (md.type (md.method m).declaring).isInterface = true) :
    Instruction.call md m = { opcode := .callvirt, operand := some (.method m) } := by
  rw [call, Metadata.callOpcode]
  simp only [hinstance, Bool.false_eq_true, if_false, Bool.or_eq_true, if_pos h]

/-- A call is behind its arguments. -/
theorem Argument.compileEach_call {m : MethodRef} {type : ValueType TypeRef} (as : List Argument)
    (hresult : (md.method m).signature.result = some type) :
    Argument.compileEach md context [.call m as] =
      (Argument.compileEach md context as).map fun compiled =>
        (compiled.1 ++ [.call md m], [type]) := by
  rw [compileEach_singleton, compile, hresult]
  cases Argument.compileEach md context as <;> rfl

namespace EditedMethod

/-- By its slot, the first local that has it is found. -/
theorem findLocal_slot_of_first {before behind : List LocalVariable} {v : LocalVariable}
    (h : context.locals = before ++ v :: behind) (hfirst : ∀ u ∈ before, u.slot ≠ v.slot) :
    context.findLocal md (.slot v.slot) = .ok v := by
  have hfind : context.locals.find? (·.slot == v.slot) = some v :=
    List.find?_eq_some_iff_append.2 ⟨by simp, before, behind, h, by simpa using hfirst⟩
  rw [findLocal, hfind]

/-- By its type, the last local whose type is listed so is found. -/
theorem findLocal_ofType_of_last {before behind : List LocalVariable} {v : LocalVariable}
    (h : context.locals = before ++ v :: behind)
    (hlast : ∀ u ∈ behind, md.renderType u.type ≠ md.renderType v.type) :
    context.findLocal md (.ofType (md.renderType v.type)) = .ok v := by
  have hfind : context.locals.reverse.find?
      (fun u => md.renderType u.type == md.renderType v.type) = some v :=
    List.find?_eq_some_iff_append.2
      ⟨by simp, behind.reverse, before.reverse, by simp [h], by simpa using hlast⟩
  rw [findLocal, hfind]

/-- A parameter of the expected type is in the slot behind the receiver and the parameters before
it. -/
theorem findParameter_of_slot {index : Nat} {type : ValueType TypeRef} {slot : UInt16}
    (h : (md.method context.method).signature.parameters[index]? = some type)
    (hslot : slot.toNat = index + context.receiverSlots md) :
    context.findParameter md index type = .ok (slot, type) := by
  rw [receiverSlots] at hslot
  simp only [findParameter, h, if_true, ← hslot]
  rw [if_pos slot.toNat_lt, Nat.toUInt16, UInt16.ofNat_toNat]

/-- A parameter behind the last slot that an operand can name is reported like a missing one. -/
theorem findParameter_of_beyond {index : Nat} {type : ValueType TypeRef}
    (h : (md.method context.method).signature.parameters[index]? = some type)
    (hslot : 65535 < index + context.receiverSlots md) :
    context.findParameter md index type =
      .error (.parameterOutOfRange index
        (md.method context.method).signature.parameters.length) := by
  rw [receiverSlots] at hslot
  simp only [findParameter, h, if_true]
  exact if_neg (Nat.not_lt_of_le hslot)

end EditedMethod

/-- What the rules give is what the compiler gives. -/
theorem Argument.Compiles.compileEach_eq {as : List Argument}
    {result : Except Error (Code × List (ValueType TypeRef))}
    (h : Compiles md context as result) : Argument.compileEach md context as = result := by
  induction h with
  | nil => rfl
  | append _ _ ihFront ihBehind => rw [compileEach_append, ihFront, ihBehind]; rfl
  | appendFront _ ih => rw [compileEach_append, ih]; rfl
  | appendBehind _ _ ihFront ihBehind => rw [compileEach_append, ihFront, ihBehind]; rfl
  | this hinstance hclass =>
    rw [compileEach_singleton, compile, EditedMethod.compileReceiver, hinstance, hclass]
    rfl
  | thisStatic hstatic =>
    rw [compileEach_singleton, compile, EditedMethod.compileReceiver]
    rw [if_pos (by simpa using hstatic)]
    rfl
  | parameter hget hslot =>
    rw [compileEach_singleton, compile, EditedMethod.findParameter_of_slot hget hslot]
    rfl
  | parameterMissing hlength =>
    rw [compileEach_singleton, compile, EditedMethod.findParameter,
      List.getElem?_eq_none hlength]
    rfl
  | parameterMismatch hget hne =>
    rw [compileEach_singleton, compile, EditedMethod.findParameter, hget]
    dsimp only
    rw [if_neg hne]
    rfl
  | parameterBeyond hget hslot =>
    rw [compileEach_singleton, compile, EditedMethod.findParameter_of_beyond hget hslot]
    rfl
  | localSlot hlocals hfirst =>
    rw [compileEach_singleton, compile,
      EditedMethod.findLocal_slot_of_first hlocals hfirst]
    rfl
  | localSlotMissing hnone =>
    rw [compileEach_singleton, compile, EditedMethod.findLocal]
    rw [List.find?_eq_none.2 (by simpa using hnone)]
    rfl
  | localType hlocals hlast =>
    rw [compileEach_singleton, compile,
      EditedMethod.findLocal_ofType_of_last hlocals hlast]
    rfl
  | localTypeMissing hnone =>
    rw [compileEach_singleton, compile, EditedMethod.findLocal]
    rw [List.find?_eq_none.2 (by simpa using hnone)]
    rfl
  | fieldMissing hfind => rw [compileEach_singleton, compile, hfind]; rfl
  | fieldStatic hfind hstatic =>
    rw [compileEach_singleton, compile, hfind]
    simp only [hstatic, if_true, Instruction.access]
    rfl
  | field hfind hinstance _ ih => rw [compileEach_field hfind hinstance, ih]; rfl
  | fieldReceiver hfind hinstance _ ih => rw [compileEach_field hfind hinstance, ih]; rfl
  | int32 => rfl
  | int64 => rfl
  | float32 => rfl
  | float64 => rfl
  | string => rfl
  | @literalUnsupported value hint32 hint64 hfloat32 hfloat64 hstring =>
    rw [compileEach_singleton, compile]
    cases value with
    | int32 v => exact absurd rfl (hint32 v)
    | int64 v => exact absurd rfl (hint64 v)
    | float32 v => exact absurd rfl (hfloat32 v)
    | float64 v => exact absurd rfl (hfloat64 v)
    | string v => exact absurd rfl (hstring v)
    | _ => rfl
  | callVoid hresult => rw [compileEach_singleton, compile, hresult]; rfl
  | call hresult hdirect _ ih =>
    rw [compileEach_call _ hresult, ih, Instruction.call_of_direct hdirect]
    rfl
  | callvirt hresult hinstance hvirtual _ ih =>
    rw [compileEach_call _ hresult, ih, Instruction.call_of_virtual hinstance hvirtual]
    rfl
  | callArguments hresult _ ih => rw [compileEach_call _ hresult, ih]; rfl

/-! ## There is a rule for every case -/

variable (md context)

/-- A method has a receiver or it has none. -/
theorem Argument.exists_compiles_this : ∃ result, Compiles md context [.this] result := by
  by_cases hstatic : (md.method context.method).isStatic = true ∨
      (md.type (md.method context.method).declaring).attributes.isStaticClass = true
  · exact ⟨_, .thisStatic hstatic⟩
  · rw [not_or, Bool.not_eq_true, Bool.not_eq_true] at hstatic
    exact ⟨_, .this hstatic.1 hstatic.2⟩

/-- A parameter is missing, has another type, is behind the last slot, or is loaded. -/
theorem Argument.exists_compiles_parameter (index : Nat) (expected : ValueType TypeRef) :
    ∃ result, Compiles md context [.parameter index expected] result := by
  cases hget : (md.method context.method).signature.parameters[index]? with
  | none => exact ⟨_, .parameterMissing (List.getElem?_eq_none_iff.1 hget)⟩
  | some found =>
    by_cases htype : found = expected
    · subst htype
      by_cases hslot : 65535 < index + context.receiverSlots md
      · exact ⟨_, .parameterBeyond hget hslot⟩
      · have hword := Nat.lt_succ_of_le (Nat.le_of_not_lt hslot)
        exact ⟨_, .parameter hget (UInt16.toNat_ofNat_of_lt hword)⟩
    · exact ⟨_, .parameterMismatch hget htype⟩

/-- A local is missing or is loaded, whichever way it was chosen. -/
theorem Argument.exists_compiles_local (choice : LocalChoice) :
    ∃ result, Compiles md context [.local choice] result := by
  cases choice with
  | slot n =>
    cases hfind : context.locals.find? (·.slot == n) with
    | none => exact ⟨_, .localSlotMissing (by simpa using hfind)⟩
    | some v =>
      obtain ⟨hslot, before, behind, hlocals, hfirst⟩ := List.find?_eq_some_iff_append.1 hfind
      cases beq_iff_eq.1 hslot
      exact ⟨_, .localSlot hlocals (by simpa using hfirst)⟩
  | ofType text =>
    cases hfind : context.locals.reverse.find? (fun v => md.renderType v.type == text) with
    | none => exact ⟨_, .localTypeMissing (by simpa using hfind)⟩
    | some v =>
      obtain ⟨htype, behind, before, hlocals, hlast⟩ := List.find?_eq_some_iff_append.1 hfind
      cases beq_iff_eq.1 htype
      have hsplit : context.locals = before.reverse ++ v :: behind.reverse := by
        simpa using congrArg List.reverse hlocals
      exact ⟨_, .localType hsplit (by simpa using hlast)⟩

/-- A field is missing, is static, or is read from the receiver if there is one. -/
theorem Argument.exists_compiles_field (type : TypeRef) (name : MemberName) :
    ∃ result, Compiles md context [.field type name] result := by
  cases hfind : md.findField type name with
  | none => exact ⟨_, .fieldMissing hfind⟩
  | some f =>
    cases hstatic : (md.field f).isStatic with
    | true => exact ⟨_, .fieldStatic hfind hstatic⟩
    | false =>
      obtain ⟨_ | _, hreceiver⟩ := exists_compiles_this md context
      · exact ⟨_, .fieldReceiver hfind hstatic hreceiver⟩
      · exact ⟨_, .field hfind hstatic hreceiver⟩

/-- A literal is of one of the five kinds that can be loaded, or is refused. -/
theorem Argument.exists_compiles_literal (value : Operand) :
    ∃ result, Compiles md context [.literal value] result := by
  cases value with
  | int32 v => exact ⟨_, .int32⟩
  | int64 v => exact ⟨_, .int64⟩
  | float32 v => exact ⟨_, .float32⟩
  | float64 v => exact ⟨_, .float64⟩
  | string v => exact ⟨_, .string⟩
  | _ => exact ⟨_, .literalUnsupported nofun nofun nofun nofun nofun⟩

mutual

/-- Some rule applies to every description. Those inside a call are smaller. -/
theorem Argument.exists_compiles (a : Argument) : ∃ result, Compiles md context [a] result := by
  cases a with
  | this => exact exists_compiles_this md context
  | parameter index expected => exact exists_compiles_parameter md context index expected
  | «local» choice => exact exists_compiles_local md context choice
  | field type name => exact exists_compiles_field md context type name
  | literal value => exact exists_compiles_literal md context value
  | call m arguments =>
    cases hresult : (md.method m).signature.result with
    | none => exact ⟨_, .callVoid hresult⟩
    | some type =>
      obtain ⟨_ | _, harguments⟩ := exists_compilesEach arguments
      · exact ⟨_, .callArguments hresult harguments⟩
      cases hstatic : (md.method m).isStatic with
      | true => exact ⟨_, .call hresult (.inl hstatic) harguments⟩
      | false =>
        by_cases hvirtual : (md.method m).attributes.isVirtual = true ∨
            (md.type (md.method m).declaring).isInterface = true
        · exact ⟨_, .callvirt hresult hstatic hvirtual harguments⟩
        · rw [not_or, Bool.not_eq_true, Bool.not_eq_true] at hvirtual
          exact ⟨_, .call hresult (.inr hvirtual) harguments⟩

/-- Some rule applies to every list of descriptions: it stops at the first error, if there is
one. -/
theorem Argument.exists_compilesEach (as : List Argument) :
    ∃ result, Compiles md context as result := by
  cases as with
  | nil => exact ⟨_, .nil⟩
  | cons a rest =>
    obtain ⟨_ | _, hfront⟩ := exists_compiles a
    · exact ⟨_, hfront.appendFront⟩
    obtain ⟨_ | _, hbehind⟩ := exists_compilesEach rest
    · exact ⟨_, hfront.appendBehind hbehind⟩
    · exact ⟨_, hfront.append hbehind⟩

end

variable {md context}

/-- The rules give one result for each list of descriptions, and the compiler computes it. -/
theorem Argument.compiles_iff {as : List Argument}
    {result : Except Error (Code × List (ValueType TypeRef))} :
    Compiles md context as result ↔ Argument.compileEach md context as = result := by
  refine ⟨Compiles.compileEach_eq, fun h => ?_⟩
  obtain ⟨result', h'⟩ := exists_compilesEach md context as
  rwa [← h, h'.compileEach_eq]

end

/-! ## Pushing puts in what was compiled -/

namespace Edit

section
variable {σ : Type} (md : Metadata) (context : EditedMethod)

/-- Values are pushed part by part. -/
theorem pushEach_append (as bs : List Argument) :
    (pushEach md context (as ++ bs) : Edit σ _) = do
      let types ← pushEach md context as
      let types' ← pushEach md context bs
      return types ++ types' := by
  induction as with
  | nil => simp [pushEach]
  | cons a as ih => simp [pushEach, ih]

/-- Push arguments, and then others. -/
def pushInParts (as bs : List Argument) : Edit σ (List (ValueType TypeRef)) := do
  let types ← pushArguments md context as
  let types' ← pushArguments md context bs
  return types ++ types'

variable {md context} {w w' : Workspace σ} {as bs : List Argument}

/-- Arguments can be pushed in two parts exactly if they can be pushed at once, with the same
outcome. -/
theorem pushInParts_eq_ok {types : List (ValueType TypeRef)} :
    pushInParts md context as bs w = .ok types w' ↔
      pushArguments md context (as ++ bs) w = .ok types w' := by
  have himplements := pushEach_implements (σ := σ) md context
  rw [pushArguments, (himplements _).allOrNothing_eq_ok, pushEach_append]
  simp only [pushInParts, pushArguments, bind_eq_ok, (himplements _).allOrNothing_eq_ok]

/-- Arguments fail in two parts with the error with which they fail at once. -/
theorem pushInParts_fails_iff {err : Error} :
    (∃ w', pushInParts md context as bs w = .error err w') ↔
      ∃ w', pushArguments md context (as ++ bs) w = .error err w' := by
  have himplements := pushEach_implements (σ := σ) md context
  simp only [pushArguments]
  rw [(himplements _).allOrNothing_fails_iff, pushEach_append]
  simp only [pushInParts, pushArguments, bind_fails_iff, (himplements _).allOrNothing_eq_ok,
    (himplements _).allOrNothing_fails_iff]

/-- What is pushed is what the rules say, whatever the code and the position are. There is one
result for each list of descriptions. If it is an error, that is the error of pushing and the cursor
stays as it is; if it is code, the code is put in front of the position, which stays on its
instruction, and the types are those of the result. So arguments can be pushed in two parts: with
the same cursor and types in the end, or the same error. -/
theorem pushArguments_splices_compiled (md : Metadata) (context : EditedMethod) :
    ∃ compile : List Argument → Except Error (Code × List (ValueType TypeRef)),
      (∀ as result, Argument.Compiles md context as result ↔ compile as = result) ∧
      ∀ (w : Workspace σ) (p : Nat), w.cursor.position = p → p ≤ w.cursor.length → ∀ as,
        (∀ err, compile as = .error err →
          ∃ w', pushArguments md context as w = .error err w' ∧ w'.cursor = w.cursor) ∧
        (∀ block types, compile as = .ok (block, types) →
          ∃ w', pushArguments md context as w = .ok types w' ∧
            w'.cursor =
              { w.cursor with
                code := w.cursor.code.take p ++ block ++ w.cursor.code.drop p
                position := p + block.length }) ∧
        ∀ bs,
          (∀ types w', pushInParts md context as bs w = .ok types w' ↔
            pushArguments md context (as ++ bs) w = .ok types w') ∧
          ∀ err, (∃ w', pushInParts md context as bs w = .error err w') ↔
            ∃ w', pushArguments md context (as ++ bs) w = .error err w' := by
  refine ⟨Argument.compileEach md context, fun as result => Argument.compiles_iff,
    fun w p hp hle as => ?_⟩
  have himplements := pushEach_implements (σ := σ) md context as
  have hins : w.cursor.CanInsert := ⟨by omega, by omega⟩
  refine ⟨fun err herr => ?_, fun block types hok => ?_, fun bs => ?_⟩
  · exact himplements.allOrNothing_of_result_error herr hins
  · obtain ⟨w', hpush, hcursor⟩ := himplements.allOrNothing_of_result_ok hok hins
    refine ⟨w', hpush, hcursor.trans ?_⟩
    rw [Cursor.splice, Cursor.put, hp]
    rfl
  · exact ⟨fun _ _ => pushInParts_eq_ok, fun _ => pushInParts_fails_iff⟩

/-- A class with a method that takes a number and a static method that adds two numbers. -/
def counter : Metadata where
  types := [{ name := .object, base := none, attributes := .ofBits _ 0x1, methods := [⟨0⟩, ⟨1⟩] }]
  methods :=
    [{ declaring := ⟨0⟩, name := .constructor, signature := ⟨[.base .int32], none⟩, generics := [],
       attributes := .ofBits _ 0x6 },
     { declaring := ⟨0⟩, name := .constructor,
       signature := ⟨[.base .int32, .base .int32], some (.base .int32)⟩, generics := [],
       attributes := .ofBits _ 0x16 }]

/-- The method that takes a number, with two variables of one type. -/
def counting : EditedMethod where
  method := ⟨0⟩
  locals := [⟨0, .base .int32⟩, ⟨1, .base .int32⟩]

/-- The cursor between two instructions. -/
def betweenTwo : Workspace Unit where
  cursor := { Cursor.ofCode [{ opcode := .ldnull }, { opcode := .pop }] with position := 1 }
  own := ()

/-- The sum of the parameter, which is behind the receiver, and of the later of two variables is
pushed between the instructions. -/
theorem pushArguments_splices_compiled_counting :
    ∃ w', pushArguments counter counting
        [.call ⟨1⟩ [.parameter 0 (.base .int32),
          .local (.ofType (counter.renderType (.base .int32)))]] betweenTwo =
        .ok [.base .int32] w' ∧
      w'.cursor.code =
        [{ opcode := .ldnull }, { opcode := .ldarg, operand := some (.argument 1) },
          { opcode := .ldloc, operand := some (.local 1) },
          { opcode := .call, operand := some (.method ⟨1⟩) }, { opcode := .pop }] ∧
      w'.cursor.position = 4 := by
  obtain ⟨compile, hrules, hpush⟩ := pushArguments_splices_compiled (σ := Unit) counter counting
  have hparameter : Argument.Compiles counter counting [.parameter 0 (.base .int32)]
      (.ok ([{ opcode := .ldarg, operand := some (.argument 1) }], [.base .int32])) :=
    .parameter rfl (by decide)
  have hlocals : counting.locals = [⟨0, .base .int32⟩] ++ ⟨1, .base .int32⟩ :: [] := rfl
  have hcall := (hrules _ _).1 (.call (m := ⟨1⟩) rfl (.inl rfl)
    (hparameter.append (.localType hlocals nofun)))
  obtain ⟨w', hrun, hcursor⟩ := (hpush betweenTwo 1 rfl (by decide) _).2.1 _ _ hcall
  exact ⟨w', hrun, by rw [hcursor]; rfl, by rw [hcursor]; rfl⟩

end

end Edit

end Weaving
