import Weaving.Metadata.Basic

/-!
# Listings of handles

How handles and the types built from them are written: a type by its name, a member by its
declaring type, its name and its own type.
-/

namespace Weaving.Metadata

/-- A type as its name. -/
def renderClass (md : Metadata) (t : TypeRef) : String := (md.type t).name.text

/-- A value type in listings. -/
def renderType (md : Metadata) (t : ValueType TypeRef) : String := t.render md.renderClass

/-- A value type in dumps. -/
def dumpType (md : Metadata) (t : ValueType TypeRef) : String := t.dump md.renderClass

/-- A signature in listings. -/
def renderSignature (md : Metadata) (s : Signature TypeRef) : String := s.render md.renderClass

/-- A signature in dumps. -/
def dumpSignature (md : Metadata) (s : Signature TypeRef) : String := s.dump md.renderClass

/-- A member of a type by its name. -/
def renderMember (md : Metadata) (t : TypeRef) (name : MemberName) : String :=
  md.renderClass t ++ "::" ++ name.text

/-- A method: its declaring type, its name and its signature. -/
def renderMethod (md : Metadata) (m : MethodRef) : String :=
  let method := md.method m
  md.renderMember method.declaring method.name ++ ":" ++ md.renderSignature method.signature

/-- A field: its declaring type, its name and its type. -/
def renderField (md : Metadata) (f : FieldRef) : String :=
  let field := md.field f
  md.renderMember field.declaring field.name ++ ":" ++ md.renderType field.type

end Weaving.Metadata
