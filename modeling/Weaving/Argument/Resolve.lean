import Weaving.Error
import Weaving.Instruction.Assemble

/-!
# What descriptions stand for

The overload that takes arguments of given types, the parameter, the local variable and the
constant that a description names, each with the error when there is none.
-/

namespace Weaving

/-- The methods of the type with the name that take arguments of the types. The first argument of
an instance method is the receiver and is not compared. -/
def Metadata.overloads (md : Metadata) (t : TypeRef) (name : MemberName)
    (types : List (ValueType TypeRef)) : List MethodRef :=
  (md.methodGroup t name).filter fun m =>
    let method := md.method m
    if method.isStatic then types == method.signature.parameters
    else match types with
      | [] => false
      | _ :: rest => rest == method.signature.parameters

/-- The one method of the type with the name that takes arguments of the types. -/
def Metadata.resolveOverload (md : Metadata) (t : TypeRef) (name : MemberName)
    (types : List (ValueType TypeRef)) : Except Error MethodRef :=
  match md.overloads t name types with
  | [] => .error (.missingOverload t name types)
  | [m] => .ok m
  | m :: n :: _ => .error (.ambiguousMethod m n)

namespace EditedMethod

/-- The local variable that is chosen. -/
def findLocal (md : Metadata) (context : EditedMethod) (choice : LocalChoice) :
    Except Error LocalVariable :=
  let picked := match choice with
    | .slot n => context.locals.find? (·.slot == n)
    | .ofType type => context.locals.reverse.find? (fun v => md.renderType v.type == type)
  match picked with
  | some v => .ok v
  | none => .error (.missingLocal choice)

/-- The parameter with the index: the slot it is in and its type. In an instance method the
receiver takes the first slot. A slot is a 16-bit word, and a parameter further on is out of
range. -/
def findParameter (md : Metadata) (context : EditedMethod) (index : Nat)
    (expected : ValueType TypeRef) : Except Error (UInt16 × ValueType TypeRef) :=
  let method := md.method context.method
  let parameters := method.signature.parameters
  match parameters[index]? with
  | none => .error (.parameterOutOfRange index parameters.length)
  | some found =>
    if found = expected then
      let slot := index + if method.isStatic then 0 else 1
      if slot < UInt16.size then .ok (slot.toUInt16, found)
      else .error (.parameterOutOfRange index parameters.length)
    else .error (.parameterTypeMismatch index expected found)

end EditedMethod

/-- The instruction that pushes the constant, and the type of the constant. -/
def Operand.literal : Operand → Except Error (Instruction × ValueType TypeRef)
  | .int32 value => .ok (.ldcI4 value, .base .int32)
  | .int64 value => .ok (.ldcI8 value, .base .int64)
  | .float32 value => .ok (.ldcR4 value, .base .float32)
  | .float64 value => .ok (.ldcR8 value, .base .float64)
  | .string value => .ok (.ldstr value, .base .string)
  | other => .error (.unsupportedLiteral other)

end Weaving
