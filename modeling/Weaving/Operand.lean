import Weaving.Decimal.Layout
import Weaving.Label
import Weaving.Text.Quoted
import Weaving.Metadata.Listing

/-!
# Operands

What an instruction carries beside its opcode. Operands are compared by value: floating point
constants compare as numbers, everything else as it stands, and handles by identity.
-/

namespace Weaving

open Decimal Text

/-- The operand of an instruction. -/
inductive Operand where
  | int32 (value : Int32)
  | int64 (value : Int64)
  | float32 (value : Binary32)
  | float64 (value : Binary64)
  | string (value : String)
  /-- A slot of the argument list; the receiver of an instance method is in slot 0. -/
  | argument (slot : UInt16)
  /-- A slot of the local variables. -/
  | local (slot : UInt16)
  | label (l : Label)
  /-- A jump table. -/
  | labels (ls : List Label)
  | method (m : MethodRef)
  | field (f : FieldRef)
  | type (t : ValueType TypeRef)
  /-- The signature of an indirect call. -/
  | signature (s : Signature TypeRef)
deriving DecidableEq

namespace Operand

/-- Equality of operands as values: floating point constants agree when their numbers do. -/
def agrees : Operand → Operand → Bool
  | .float32 x, .float32 y => x.number.agrees y.number
  | .float64 x, .float64 y => x.number.agrees y.number
  | a, b => a == b

/-- The method, when the operand is one. -/
def method? : Operand → Option MethodRef
  | .method m => some m
  | _ => none

/-- The field, when the operand is one. -/
def field? : Operand → Option FieldRef
  | .field f => some f
  | _ => none

/-- The slot, when the operand is an argument or a local variable. -/
def slot? : Operand → Option UInt16
  | .argument slot | .local slot => some slot
  | _ => none

/-- Numbers in listings are positional and shortest. -/
def listingLayout : Layout := { markWhole := false, positional := none }

/-- Numbers in dumps are marked as fractions, and have an exponent below `1e-4` and from `1e16`
on. -/
def dumpLayout : Layout := { markWhole := true, positional := some (-4, 15) }

/-- The operand in listings. -/
def render (md : Metadata) : Operand → String
  | .int32 value => toString value.toInt
  | .int64 value => toString value.toInt
  | .float32 value => listingLayout.write value.number
  | .float64 value => listingLayout.write value.number
  | .string value => Quoted.quote value
  | .argument slot | .local slot => toString slot.toNat
  | .label l => l.render
  | .labels ls => Label.renderAll ls
  | .method m => md.renderMethod m
  | .field f => md.renderField f
  | .type t => md.dumpType t
  | .signature s => md.dumpSignature s

/-- The tag of the operand in dumps. -/
def tag : Operand → String
  | .int32 _ => "Int32"
  | .int64 _ => "Int64"
  | .float32 _ => "Float32"
  | .float64 _ => "Float64"
  | .string _ => "String"
  | .argument _ => "Argument"
  | .local _ => "Local"
  | .label _ => "Label"
  | .labels _ => "Labels"
  | .method _ => "Method"
  | .field _ => "Field"
  | .type _ => "Type"
  | .signature _ => "Signature"

/-- The operand in dumps: its tag around its listing, with numbers in the layout of dumps. -/
def dump (md : Metadata) (o : Operand) : String :=
  let part := match o with
    | .float32 value => dumpLayout.write value.number
    | .float64 value => dumpLayout.write value.number
    | _ => o.render md
  Dump.tagged o.tag [part]

end Operand

end Weaving
