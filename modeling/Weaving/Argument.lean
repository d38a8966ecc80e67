import Weaving.Operand

/-!
# Arguments by description

A value to push onto the stack, described by where it comes from: the receiver or a parameter of
the edited method, a local variable, a field, a constant, or the result of a call with arguments
of its own.
-/

namespace Weaving

open Text

/-- A local variable of the edited method. -/
structure LocalVariable where
  slot : UInt16
  type : ValueType TypeRef
deriving DecidableEq

/-- The method whose body is edited. -/
structure EditedMethod where
  method : MethodRef
  locals : List LocalVariable := []
deriving DecidableEq

/-- How a local variable is picked. -/
inductive LocalChoice where
  /-- The first variable declared for the slot. -/
  | slot (n : UInt16)
  /-- The last variable whose type is listed so. -/
  | ofType (type : String)
deriving DecidableEq, Repr

/-- The choice in dumps. -/
def LocalChoice.dump : LocalChoice → String
  | .slot n => Dump.tagged "Index" [toString n.toNat]
  | .ofType type => Dump.tagged "OfType" [Quoted.quote type]

/-- A description of a value to push. -/
inductive Argument where
  /-- The receiver of the edited method. -/
  | this
  /-- A parameter of the edited method, counted without the receiver, with the type that it is
  expected to have. -/
  | parameter (index : Nat) (expected : ValueType TypeRef)
  | local (choice : LocalChoice)
  /-- A field of the type or of its bases; an instance field is read from the receiver. -/
  | field (type : TypeRef) (name : MemberName)
  /-- A number or a text. -/
  | literal (value : Operand)
  /-- The result of calling the method. -/
  | call (m : MethodRef) (arguments : List Argument)

mutual

/-- The description in dumps. -/
def Argument.dump (md : Metadata) : Argument → String
  | .this => "This"
  | .parameter index expected =>
    Dump.record "Parameter" [("index", toString index), ("expected", md.dumpType expected)]
  | .local choice => Dump.tagged "Local" [choice.dump]
  | .field type name => Dump.tagged "Field" [md.renderClass type, name.text]
  | .literal value => Dump.tagged "Literal" [value.dump md]
  | .call m arguments =>
    Dump.tagged "Call" [md.renderMethod m, Dump.sequence (Argument.dumpAll md arguments)]

/-- The descriptions in dumps, one by one. -/
def Argument.dumpAll (md : Metadata) : List Argument → List String
  | [] => []
  | a :: as => Argument.dump md a :: Argument.dumpAll md as

end

end Weaving
