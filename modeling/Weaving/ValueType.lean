import Weaving.Text.Dump

/-!
# Value types

The type of a parameter, a local variable, a field or a stack slot: a built-in type or a class,
or an array of them. An array counts the dimensions beyond its first in a word. Classes are left
open, so that a value type can refer to them by name or by handle.
-/

namespace Weaving

open Text

/-- The built-in types. Texts and plain objects are references, but they have encodings of their
own and are listed here. -/
inductive BaseType where
  | boolean | char
  | int8 | uint8 | int16 | uint16 | int32 | uint32 | int64 | uint64
  | float32 | float64
  | nativeInt
  | string | object
deriving DecidableEq, Repr

namespace BaseType

/-- All built-in types. -/
def all : List BaseType :=
  [.boolean, .char, .int8, .uint8, .int16, .uint16, .int32, .uint32, .int64, .uint64,
   .float32, .float64, .nativeInt, .string, .object]

/-- The keyword of the type in listings. -/
def keyword : BaseType → String
  | .boolean => "bool"
  | .char => "char"
  | .int8 => "int8"
  | .uint8 => "uint8"
  | .int16 => "int16"
  | .uint16 => "uint16"
  | .int32 => "int32"
  | .uint32 => "uint32"
  | .int64 => "int64"
  | .uint64 => "uint64"
  | .float32 => "float32"
  | .float64 => "float64"
  | .nativeInt => "native int"
  | .string => "string"
  | .object => "object"

/-- The type with the keyword. -/
def ofKeyword? (s : String) : Option BaseType :=
  all.find? (·.keyword == s)

/-- The tag of the type in dumps. -/
def tag : BaseType → String
  | .boolean => "Boolean"
  | .char => "Char"
  | .int8 => "Int8"
  | .uint8 => "UInt8"
  | .int16 => "Int16"
  | .uint16 => "UInt16"
  | .int32 => "Int32"
  | .uint32 => "UInt32"
  | .int64 => "Int64"
  | .uint64 => "UInt64"
  | .float32 => "Float32"
  | .float64 => "Float64"
  | .nativeInt => "IntPtr"
  | .string => "String"
  | .object => "Object"

/-- The values are references to the heap. -/
def isReference : BaseType → Bool
  | .string | .object => true
  | _ => false

/-- The values are characters, integers or floating point numbers. -/
def isNumeric : BaseType → Bool
  | .boolean | .string | .object => false
  | _ => true

end BaseType

/-- A type that is no array. -/
inductive ElementType (κ : Type) where
  | base (b : BaseType)
  | ofClass (c : κ)
deriving DecidableEq, Repr

/-- An element type, or an array of it with the number of dimensions beyond its first. -/
structure ValueType (κ : Type) where
  element : ElementType κ
  further : Option UInt64 := none
deriving DecidableEq, Repr

namespace ElementType

variable {κ μ : Type}

/-- The type with its class replaced. -/
def map (f : κ → μ) : ElementType κ → ElementType μ
  | .base b => .base b
  | .ofClass c => .ofClass (f c)

/-- The type in listings: the keyword or the name of the class. -/
def render (nameOf : κ → String) : ElementType κ → String
  | .base b => b.keyword
  | .ofClass c => nameOf c

end ElementType

namespace ValueType

variable {κ μ : Type}

/-- A built-in type. -/
def base (b : BaseType) : ValueType κ := ⟨.base b, none⟩

/-- The type of the instances of a class. -/
def ofClass (c : κ) : ValueType κ := ⟨.ofClass c, none⟩

/-- The number of dimensions, zero for a type that is no array. It is a word, so an array with as
many further dimensions as a word can count has none. -/
def dimensions (t : ValueType κ) : UInt64 := t.further.elim 0 (· + 1)

/-- The type with its class replaced. -/
def map (f : κ → μ) (t : ValueType κ) : ValueType μ := ⟨t.element.map f, t.further⟩

/-- The type is an array type. -/
def isArray (t : ValueType κ) : Bool := t.further.isSome

/-- The built-in type, when the type is one. -/
def base? (t : ValueType κ) : Option BaseType :=
  match t.element, t.further with
  | .base b, none => some b
  | _, _ => none

/-- The values are references to the heap. -/
def isReference (t : ValueType κ) : Bool :=
  match t.base? with
  | some b => b.isReference
  | none => true

/-- The type in listings: the element type, then a pair of brackets for each dimension. -/
def render (nameOf : κ → String) (t : ValueType κ) : String :=
  t.element.render nameOf ++ String.join (List.replicate t.dimensions.toNat "[]")

/-- The type in dumps. -/
def dump (dumpClass : κ → String) (t : ValueType κ) : String :=
  match t.element, t.further with
  | .base b, none => Dump.tagged "Base" [b.tag]
  | .ofClass c, none => Dump.tagged "Class" [dumpClass c]
  | .base b, some further => Dump.tagged "PrimitiveArray" [arrayDump further b.tag]
  | .ofClass c, some further => Dump.tagged "ClassArray" [arrayDump further (dumpClass c)]
where
  /-- An array by its further dimensions and its element. -/
  arrayDump (further : UInt64) (element : String) : String :=
    Dump.record "ArrayType"
      [("additional_dimensions", toString further), ("element_type", element)]

end ValueType

end Weaving
