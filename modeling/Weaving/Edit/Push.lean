import Weaving.Argument.Resolve
import Weaving.Edit.Change

/-!
# Pushing arguments

Arguments given by description are pushed by instructions inserted in front of the position. It
is all or nothing: if one argument cannot be pushed, the instructions for the others are removed
again.
-/

namespace Weaving.Edit

variable {σ : Type}

/-- Push the receiver of the edited method. Methods of static classes have none. -/
def pushReceiver (md : Metadata) (context : EditedMethod) : Edit σ (ValueType TypeRef) := do
  let method := md.method context.method
  if method.isStatic || (md.type method.declaring).attributes.isStaticClass then
    throw (.staticContext context.method)
  else
    emit [.ldthis]
    return .ofClass method.declaring

mutual

/-- Push the value that the description stands for. The result is its type. -/
def pushOne (md : Metadata) (context : EditedMethod) (argument : Argument) :
    Edit σ (ValueType TypeRef) := do
  record (.loading argument)
  match argument with
  | .this => pushReceiver md context
  | .parameter index expected =>
    let (slot, type) ← ofExcept (context.findParameter md index expected)
    emit [.ldarg slot]
    return type
  | .local choice =>
    let v ← ofExcept (context.findLocal md choice)
    emit [.ldloc v.slot]
    return v.type
  | .field type name =>
    match md.findField type name with
    | none => throw (.missingField type name)
    | some f =>
      if !(md.field f).isStatic then
        let _ ← pushReceiver md context
      emit [.access md f .read]
      return (md.field f).type
  | .literal value =>
    let (instruction, type) ← ofExcept value.literal
    emit [instruction]
    return type
  | .call m arguments =>
    match (md.method m).signature.result with
    | none => throw (.voidArgument m)
    | some type =>
      let _ ← pushEach md context arguments
      emit [.call md m]
      return type

/-- Push the values one after the other. The result is the list of their types. -/
def pushEach (md : Metadata) (context : EditedMethod) :
    List Argument → Edit σ (List (ValueType TypeRef))
  | [] => return []
  | a :: rest => do
    let type ← pushOne md context a
    let types ← pushEach md context rest
    return type :: types

end

/-- Run an edit that only inserts at the position; if it fails, remove what it inserted. -/
def allOrNothing {α : Type} (edit : Edit σ α) : Edit σ α := do
  let before ← cursor
  try
    edit
  catch error =>
    let inserted := (← cursor).length - before.length
    if 0 < inserted ∧ 0 ≤ before.position then
      let start := before.position.toNat
      removeBetween start (start + inserted - 1)
    throw error

/-- Insert the instructions that push the arguments. The result is the list of their types. -/
def pushArguments (md : Metadata) (context : EditedMethod) (arguments : List Argument) :
    Edit σ (List (ValueType TypeRef)) :=
  allOrNothing (pushEach md context arguments)

/-- Insert the instructions that push the arguments, then a call of the overload that takes
them. -/
def pushCall (md : Metadata) (context : EditedMethod) (t : TypeRef) (name : MemberName)
    (arguments : List Argument) : Edit σ MethodRef :=
  allOrNothing do
    let types ← pushEach md context arguments
    let m ← ofExcept (md.resolveOverload t name types)
    emit [.call md m]
    record (.callInserted m)
    return m

end Weaving.Edit
