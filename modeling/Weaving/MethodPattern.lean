import Weaving.Metadata.Listing

/-!
# Methods by name

A method pattern describes the method that a call goes to: by the name of the declaring type, the
name of the method and, if given, its first parameters and generic arguments. Further parameters
are accepted, so that a pattern survives parameters appended to the method.
-/

namespace Weaving

open Text

/-- A description of the methods that a call may go to. -/
structure MethodPattern where
  declaring : TypeName
  name : MemberName
  parameters : Option (List (ValueType TypeRef)) := none
  generics : Option (List (ValueType TypeRef)) := none
deriving DecidableEq

namespace MethodPattern

/-- The method is one of those described. -/
def admits (md : Metadata) (p : MethodPattern) (m : MethodRef) : Bool :=
  let method := md.method m
  (md.type method.declaring).name == p.declaring && method.name == p.name &&
    p.parameters.all (fun types => method.signature.startsWith types) &&
    p.generics.all (fun types => types.isPrefixOf method.generics)

/-- The description in listings; dots stand for what may follow. -/
def render (md : Metadata) (p : MethodPattern) : String :=
  let types (ts : List (ValueType TypeRef)) := Dump.commaSeparated (ts.map md.renderType) ++ ", .."
  p.declaring.text ++ "::" ++ p.name.text ++
    (p.generics.elim "" fun ts => "<" ++ types ts ++ ">") ++
    (p.parameters.elim "(..)" fun ts => "(" ++ types ts ++ ")")

/-- The description in dumps. -/
def dump (md : Metadata) (p : MethodPattern) : String :=
  let types (ts : Option (List (ValueType TypeRef))) :=
    Dump.optional (ts.map fun ts => Dump.sequence (ts.map md.dumpType))
  Dump.record "CallSignature"
    [("declaring_type", p.declaring.text), ("name", p.name.text),
     ("parameters", types p.parameters), ("generic_arguments", types p.generics)]

end MethodPattern

end Weaving
