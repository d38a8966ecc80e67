import Weaving.Text.Whitespace

/-!
# Names of types and members

A member name is a non-empty text without reserved characters and without white space. A type
name is a list of such texts, its segments, joined by separators: `.` between namespaces, `+`
between an enclosing type and a type nested in it. A name carries the proof that its text is
legal, so every value of these types is a name.
-/

namespace Weaving

/-- What is wrong with a text that is no name. -/
inductive NameFault where
  | illegalCharacter
  | whitespace
  | empty
  | emptySegment
deriving DecidableEq, Repr

/-- The fault as the end of a sentence about the name. -/
def NameFault.phrase : NameFault → String
  | .illegalCharacter => "contains an illegal character"
  | .whitespace => "contains whitespace"
  | .empty => "is empty"
  | .emptySegment => "has an empty segment"

/-- What a name was meant for. -/
inductive NameKind where
  | member
  | type
deriving DecidableEq, Repr

/-- A text that was refused as a name. -/
structure NameError where
  kind : NameKind
  text : String
  fault : NameFault
deriving DecidableEq, Repr

/-- The sentence that reports the refusal. -/
def NameError.message (e : NameError) : String :=
  let kind := match e.kind with
    | .member => "Member"
    | .type => "Type"
  kind ++ " name '" ++ e.text ++ "' " ++ e.fault.phrase

namespace Name

/-- The characters with a meaning of their own in listings of types and members. -/
def isReserved (c : Char) : Bool :=
  ['/', ';', '[', ']', '<', '>', ':', '(', ')', ','].contains c

/-- The characters between the segments of a type name. -/
def isSeparator (c : Char) : Bool :=
  c == '.' || c == '+'

/-- The segments of a text: what stands between its separators. A text has one segment more than
it has separators. -/
def segments : List Char → List (List Char)
  | [] => [[]]
  | c :: cs =>
    if isSeparator c then [] :: segments cs
    else match segments cs with
      | [] => [[c]]
      | s :: ss => (c :: s) :: ss

end Name

/-! ## Member names -/

/-- The fault of a text as a member name. A reserved character is reported before white space. -/
def memberFault? (cs : List Char) : Option NameFault :=
  if cs.any Name.isReserved then some .illegalCharacter
  else if cs.any Text.isWhitespace then some .whitespace
  else if cs.isEmpty then some .empty
  else none

/-- The name of a method, a field or a local variable. -/
structure MemberName where
  text : String
  legal : memberFault? text.toList = none
deriving DecidableEq

namespace MemberName

/-- The text as a member name. -/
def ofString (text : String) : Except NameError MemberName :=
  match h : memberFault? text.toList with
  | none => .ok ⟨text, h⟩
  | some fault => .error ⟨.member, text, fault⟩

/-- The reserved name of instance constructors. -/
def constructor : MemberName := ⟨".ctor", by decide⟩

/-- The reserved name of type initialisers. -/
def staticConstructor : MemberName := ⟨".cctor", by decide⟩

end MemberName

/-! ## Type names -/

/-- The fault of a segment of a type name. -/
def segmentFault? (segment : List Char) : Option NameFault :=
  if segment.isEmpty then some .emptySegment
  else if segment.any Name.isReserved || segment.any Text.isWhitespace then some .illegalCharacter
  else none

/-- The fault of a text as a type name: that of its first faulty segment. -/
def typeFault? (cs : List Char) : Option NameFault :=
  if cs.isEmpty then some .empty
  else (Name.segments cs).findSome? segmentFault?

/-- The name of a type with its namespace and its enclosing types. -/
structure TypeName where
  text : String
  legal : typeFault? text.toList = none
deriving DecidableEq

namespace TypeName

/-- The text as a type name. -/
def ofString (text : String) : Except NameError TypeName :=
  match h : typeFault? text.toList with
  | none => .ok ⟨text, h⟩
  | some fault => .error ⟨.type, text, fault⟩

/-- The root of the class hierarchy. -/
def object : TypeName := ⟨"System.Object", by decide⟩

/-- The class of texts. -/
def string : TypeName := ⟨"System.String", by decide⟩

/-- The last segment of the name. -/
def lastSegment (t : TypeName) : String :=
  String.ofList ((t.text.toList.reverse.takeWhile (!Name.isSeparator ·)).reverse)

/-- What stands before the last `.` of the name; separators of nested types are kept. -/
def namespace? (t : TypeName) : Option String :=
  match t.text.toList.reverse.dropWhile (· != '.') with
  | [] => none
  | _ :: before => some (String.ofList before.reverse)

end TypeName

end Weaving
