import Weaving.Instruction

/-!
# Instructions by mnemonic

The instructions that edits insert, each under the mnemonic of its opcode. A call and an access
to a field have to look at the member to choose the opcode.
-/

namespace Weaving

/-- Whether a field is read or written. -/
inductive Access where
  | read
  | write
deriving DecidableEq, Repr

namespace Instruction

/-- Push an argument. -/
def ldarg (slot : UInt16) : Instruction :=
  { opcode := .ldarg, operand := some (.argument slot) }

/-- Push the receiver of an instance method, which is its first argument. -/
def ldthis : Instruction := ldarg 0

/-- Push a local variable. -/
def ldloc (slot : UInt16) : Instruction :=
  { opcode := .ldloc, operand := some (.local slot) }

/-- Pop into a local variable. -/
def stloc (slot : UInt16) : Instruction :=
  { opcode := .stloc, operand := some (.local slot) }

/-- Push the null reference. -/
def ldnull : Instruction := { opcode := .ldnull }

/-- Push a 32-bit integer. -/
def ldcI4 (value : Int32) : Instruction :=
  { opcode := .ldcI4, operand := some (.int32 value) }

/-- Push a 64-bit integer. -/
def ldcI8 (value : Int64) : Instruction :=
  { opcode := .ldcI8, operand := some (.int64 value) }

/-- Push a 32-bit floating point number. -/
def ldcR4 (value : Decimal.Binary32) : Instruction :=
  { opcode := .ldcR4, operand := some (.float32 value) }

/-- Push a 64-bit floating point number. -/
def ldcR8 (value : Decimal.Binary64) : Instruction :=
  { opcode := .ldcR8, operand := some (.float64 value) }

/-- Push a text. -/
def ldstr (value : String) : Instruction :=
  { opcode := .ldstr, operand := some (.string value) }

/-- Discard the top of the stack. -/
def pop : Instruction := { opcode := .pop }

/-- Go to a label. -/
def branch (op : Opcode) (l : Label) : Instruction :=
  { opcode := op, operand := some (.label l) }

/-- Call a method with the opcode that it needs. -/
def call (md : Metadata) (m : MethodRef) : Instruction :=
  { opcode := md.callOpcode m, operand := some (.method m) }

/-- Read or write a field. -/
def access (md : Metadata) (f : FieldRef) (how : Access) : Instruction :=
  let opcode : Opcode := match (md.field f).isStatic, how with
    | true, .read => .ldsfld
    | true, .write => .stsfld
    | false, .read => .ldfld
    | false, .write => .stfld
  { opcode, operand := some (.field f) }

end Instruction

end Weaving
