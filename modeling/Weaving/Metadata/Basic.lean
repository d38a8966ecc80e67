import Weaving.Attributes
import Weaving.Name
import Weaving.Opcode
import Weaving.Signature

/-!
# Metadata

The types, methods and fields that the edited code refers to. Each is declared once and is
referred to by a handle from then on; two handles are equal when they stand for the same
declaration, whatever the names are. A method declared again with the same name, signature,
generic arguments and kind of receiver is the one already there.
-/

namespace Weaving

/-- The handle of a type. -/
structure TypeRef where
  index : Nat
deriving DecidableEq, Repr

/-- The handle of a method. -/
structure MethodRef where
  index : Nat
deriving DecidableEq, Repr

/-- The handle of a field. -/
structure FieldRef where
  index : Nat
deriving DecidableEq, Repr

/-- What is declared of a type. Interfaces and the root of the hierarchy have no base. -/
structure TypeDecl where
  name : TypeName
  base : Option TypeRef
  attributes : Attributes .type
deriving DecidableEq

/-- What is declared of a method. The generic arguments of a method that is not generic are the
empty list. -/
structure Method where
  declaring : TypeRef
  name : MemberName
  signature : Signature TypeRef
  generics : List (ValueType TypeRef)
  attributes : Attributes .method
deriving DecidableEq

/-- What is declared of a field. -/
structure Field where
  declaring : TypeRef
  name : MemberName
  type : ValueType TypeRef
  attributes : Attributes .field
deriving DecidableEq

/-- A declared type with its members, in the order of their declaration. -/
structure TypeEntry extends TypeDecl where
  methods : List MethodRef := []
  fields : List FieldRef := []
deriving DecidableEq

instance : Inhabited TypeEntry := ⟨{ name := .object, base := none, attributes := .ofBits _ 0 }⟩

instance : Inhabited Method :=
  ⟨{ declaring := ⟨0⟩, name := .constructor, signature := ⟨[], none⟩, generics := [],
     attributes := .ofBits _ 0 }⟩

instance : Inhabited Field :=
  ⟨{ declaring := ⟨0⟩, name := .constructor, type := .base .object, attributes := .ofBits _ 0 }⟩

namespace TypeEntry

/-- The type is an interface. -/
def isInterface (t : TypeEntry) : Bool := t.attributes.isInterface

/-- The types are equal as far as their names tell. -/
def sameName (t u : TypeEntry) : Bool := t.name == u.name

end TypeEntry

namespace Method

/-- The method has no receiver. -/
def isStatic (m : Method) : Bool := m.attributes.isStaticMethod

/-- The number of values that a call takes from the stack, the receiver among them. -/
def consumption (m : Method) : Nat := m.signature.consumption !m.isStatic

/-- The declarations agree in what tells overloads apart: name, signature, generic arguments and
whether there is a receiver. -/
def sameOverload (m n : Method) : Bool :=
  m.name == n.name && m.signature == n.signature && m.generics == n.generics &&
    m.isStatic == n.isStatic

end Method

/-- The field belongs to the type and not to its instances. -/
def Field.isStatic (f : Field) : Bool := f.attributes.isStaticField

/-- The declared types, methods and fields. A handle is an index into its list; one from elsewhere
that is beyond the list stands for an entry by default. -/
structure Metadata where
  types : List TypeEntry := []
  methods : List Method := []
  fields : List Field := []

namespace Metadata

/-- No declarations at all. -/
def empty : Metadata := {}

/-- The type of a handle. -/
def type (md : Metadata) (t : TypeRef) : TypeEntry := md.types[t.index]?.getD default

/-- The method of a handle. -/
def method (md : Metadata) (m : MethodRef) : Method := md.methods[m.index]?.getD default

/-- The field of a handle. -/
def field (md : Metadata) (f : FieldRef) : Field := md.fields[f.index]?.getD default

/-! ## Declaration -/

/-- Declare a type, without members. -/
def declareType (md : Metadata) (decl : TypeDecl) : TypeRef × Metadata :=
  (⟨md.types.length⟩, { md with types := md.types ++ [{ toTypeDecl := decl }] })

/-- Change the entry of a type. -/
def modifyType (md : Metadata) (t : TypeRef) (f : TypeEntry → TypeEntry) : Metadata :=
  { md with types := md.types.modify t.index f }

/-- Declare a field, as a member of its declaring type. -/
def declareField (md : Metadata) (field : Field) : FieldRef × Metadata :=
  let f : FieldRef := ⟨md.fields.length⟩
  (f, { md with fields := md.fields ++ [field] }.modifyType field.declaring
    fun t => { t with fields := t.fields ++ [f] })

/-- Declare a method, as a member of its declaring type, unless the type has the same overload
already. -/
def declareMethod (md : Metadata) (method : Method) : MethodRef × Metadata :=
  match (md.type method.declaring).methods.find? (fun m => (md.method m).sameOverload method) with
  | some m => (m, md)
  | none =>
    let m : MethodRef := ⟨md.methods.length⟩
    (m, { md with methods := md.methods ++ [method] }.modifyType method.declaring
      fun t => { t with methods := t.methods ++ [m] })

/-! ## Look-up -/

/-- The first type that was declared with the name. -/
def findType (md : Metadata) (name : TypeName) : Option TypeRef :=
  (md.types.findIdx? (·.name == name)).map TypeRef.mk

/-- The methods of the type that have the name, in the order of their declaration. -/
def methodGroup (md : Metadata) (t : TypeRef) (name : MemberName) : List MethodRef :=
  (md.type t).methods.filter fun m => (md.method m).name == name

/-- The first field of the type itself that has the name. -/
def ownField (md : Metadata) (t : TypeRef) (name : MemberName) : Option FieldRef :=
  (md.type t).fields.find? fun f => (md.field f).name == name

/-- The type, its base, the base of that, and so on. A base is declared before the types that
build on it, so the chain descends. -/
def baseChain (md : Metadata) (t : TypeRef) : List TypeRef :=
  t :: match (md.type t).base with
    | none => []
    | some b => if b.index < t.index then baseChain md b else []
termination_by t.index

/-- The field of that name on the nearest type of the base chain that has one. -/
def findField (md : Metadata) (t : TypeRef) (name : MemberName) : Option FieldRef :=
  (md.baseChain t).findSome? fun u => md.ownField u name

/-- The opcode that calls the method: a virtual call for virtual methods and for the methods of
interfaces, provided they have a receiver. -/
def callOpcode (md : Metadata) (m : MethodRef) : Opcode :=
  let method := md.method m
  if method.isStatic then .call
  else if method.attributes.isVirtual || (md.type method.declaring).isInterface then .callvirt
  else .call

end Metadata

end Weaving
