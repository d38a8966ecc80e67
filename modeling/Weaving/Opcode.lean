import Weaving.Text.Dump

/-!
# Opcodes

The operations of the stack machine, with the facts that editing relies on: how many values each
one takes from the stack and leaves on it, and where control goes next. The short and long
encodings of one operation are a single opcode here, whose operand carries the index.
-/

namespace Weaving

open Text

/-- The operations of the stack machine. -/
inductive Opcode where
  | nop
  | ldarg | ldarga | starg | ldloc | ldloca | stloc
  | ldnull | ldcI4 | ldcI8 | ldcR4 | ldcR8 | ldstr
  | dup | pop
  | call | callvirt | calli | newobj | ret
  | br | brfalse | brtrue | beq | bne | bge | bgt | ble | blt | switch | leave
  | endfinally | throw | rethrow
  | ldfld | ldflda | stfld | ldsfld | ldsflda | stsfld
  | add | sub | mul | div | rem | neg | and | or | xor | not | shl | shr
  | ceq | cgt | clt
  | convI4 | convI8 | convR4 | convR8
  | box | unboxAny | castclass | isinst
  | newarr | ldlen | ldelem | stelem
  | ldtoken | ldftn | ldvirtftn
deriving DecidableEq, Repr

/-- The number of values on one side of an operation's stack effect. -/
inductive Arity where
  /-- Always this many values. -/
  | fixed (count : Nat)
  /-- As many as the operand says. -/
  | varying
deriving DecidableEq, Repr

namespace Arity

/-- The number of values when the operand is not looked at: a varying number counts as one. -/
def nominal : Arity → Nat
  | .fixed count => count
  | .varying => 1

/-- The arity in dumps. -/
def dump : Arity → String
  | .fixed count => Dump.tagged "Fixed" [toString count]
  | .varying => "Variable"

end Arity

/-- The declared stack effect of an operation. -/
structure StackEffect where
  pop : Arity
  push : Arity
deriving DecidableEq, Repr

namespace StackEffect

/-- Values left on the stack less values taken from it, in nominal numbers. -/
def net (b : StackEffect) : Int :=
  (b.push.nominal : Int) - b.pop.nominal

/-- The effect in dumps. -/
def dump (b : StackEffect) : String :=
  Dump.record "StackBehaviour" [("pop", b.pop.dump), ("push", b.push.dump)]

end StackEffect

/-- Where control goes after an operation. -/
inductive Flow where
  | next
  | call
  | branch
  | conditionalBranch
  | exit
  | raise
deriving DecidableEq, Repr

/-- The tag of the control flow in dumps. -/
def Flow.tag : Flow → String
  | .next => "Next"
  | .call => "Call"
  | .branch => "Branch"
  | .conditionalBranch => "ConditionalBranch"
  | .exit => "Return"
  | .raise => "Throw"

namespace Opcode

/-- All opcodes. -/
def all : List Opcode :=
  [.nop, .ldarg, .ldarga, .starg, .ldloc, .ldloca, .stloc, .ldnull, .ldcI4, .ldcI8, .ldcR4,
   .ldcR8, .ldstr, .dup, .pop, .call, .callvirt, .calli, .newobj, .ret, .br, .brfalse, .brtrue,
   .beq, .bne, .bge, .bgt, .ble, .blt, .switch, .leave, .endfinally, .throw, .rethrow, .ldfld,
   .ldflda, .stfld, .ldsfld, .ldsflda, .stsfld, .add, .sub, .mul, .div, .rem, .neg, .and, .or,
   .xor, .not, .shl, .shr, .ceq, .cgt, .clt, .convI4, .convI8, .convR4, .convR8, .box, .unboxAny,
   .castclass, .isinst, .newarr, .ldlen, .ldelem, .stelem, .ldtoken, .ldftn, .ldvirtftn]

/-- The declared stack effect. -/
def stackEffect : Opcode → StackEffect
  | .nop | .br | .leave | .endfinally | .rethrow => ⟨.fixed 0, .fixed 0⟩
  | .ldarg | .ldarga | .ldloc | .ldloca | .ldnull | .ldcI4 | .ldcI8 | .ldcR4 | .ldcR8 | .ldstr
  | .ldsfld | .ldsflda | .ldtoken | .ldftn => ⟨.fixed 0, .fixed 1⟩
  | .starg | .stloc | .stsfld | .pop | .brfalse | .brtrue | .switch | .throw =>
    ⟨.fixed 1, .fixed 0⟩
  | .dup => ⟨.fixed 1, .fixed 2⟩
  | .beq | .bne | .bge | .bgt | .ble | .blt | .stfld => ⟨.fixed 2, .fixed 0⟩
  | .ldfld | .ldflda | .neg | .not | .convI4 | .convI8 | .convR4 | .convR8 | .box | .unboxAny
  | .castclass | .isinst | .newarr | .ldlen | .ldvirtftn => ⟨.fixed 1, .fixed 1⟩
  | .add | .sub | .mul | .div | .rem | .and | .or | .xor | .shl | .shr | .ceq | .cgt | .clt
  | .ldelem => ⟨.fixed 2, .fixed 1⟩
  | .stelem => ⟨.fixed 3, .fixed 0⟩
  | .call | .callvirt | .calli | .newobj => ⟨.varying, .varying⟩
  | .ret => ⟨.varying, .fixed 0⟩

/-- Values left on the stack less values taken from it, in nominal numbers. -/
def netEffect (op : Opcode) : Int := op.stackEffect.net

/-- Where control goes next. -/
def flow : Opcode → Flow
  | .call | .callvirt | .calli | .newobj => .call
  | .br | .leave => .branch
  | .brfalse | .brtrue | .beq | .bne | .bge | .bgt | .ble | .blt | .switch => .conditionalBranch
  | .ret | .endfinally => .exit
  | .throw | .rethrow => .raise
  | _ => .next

/-- A direct, virtual or indirect call of a method. Making an object is no call. -/
def isCall : Opcode → Bool
  | .call | .callvirt | .calli => true
  | _ => false

/-- The operation has labels to go to. -/
def isBranch (op : Opcode) : Bool :=
  match op.flow with
  | .branch | .conditionalBranch => true
  | _ => false

/-- The operation goes to a label or falls through. -/
def isConditionalBranch (op : Opcode) : Bool :=
  op.flow == .conditionalBranch

/-- The operation pushes a constant. -/
def pushesConstant : Opcode → Bool
  | .ldnull | .ldcI4 | .ldcI8 | .ldcR4 | .ldcR8 | .ldstr => true
  | _ => false

/-- Control can reach the next instruction. -/
def fallsThrough (op : Opcode) : Bool :=
  match op.flow with
  | .branch | .exit | .raise => false
  | _ => true

/-- The opcode in listings. -/
def mnemonic : Opcode → String
  | .nop => "nop"
  | .ldarg => "ldarg"
  | .ldarga => "ldarga"
  | .starg => "starg"
  | .ldloc => "ldloc"
  | .ldloca => "ldloca"
  | .stloc => "stloc"
  | .ldnull => "ldnull"
  | .ldcI4 => "ldc.i4"
  | .ldcI8 => "ldc.i8"
  | .ldcR4 => "ldc.r4"
  | .ldcR8 => "ldc.r8"
  | .ldstr => "ldstr"
  | .dup => "dup"
  | .pop => "pop"
  | .call => "call"
  | .callvirt => "callvirt"
  | .calli => "calli"
  | .newobj => "newobj"
  | .ret => "ret"
  | .br => "br"
  | .brfalse => "brfalse"
  | .brtrue => "brtrue"
  | .beq => "beq"
  | .bne => "bne.un"
  | .bge => "bge"
  | .bgt => "bgt"
  | .ble => "ble"
  | .blt => "blt"
  | .switch => "switch"
  | .leave => "leave"
  | .endfinally => "endfinally"
  | .throw => "throw"
  | .rethrow => "rethrow"
  | .ldfld => "ldfld"
  | .ldflda => "ldflda"
  | .stfld => "stfld"
  | .ldsfld => "ldsfld"
  | .ldsflda => "ldsflda"
  | .stsfld => "stsfld"
  | .add => "add"
  | .sub => "sub"
  | .mul => "mul"
  | .div => "div"
  | .rem => "rem"
  | .neg => "neg"
  | .and => "and"
  | .or => "or"
  | .xor => "xor"
  | .not => "not"
  | .shl => "shl"
  | .shr => "shr"
  | .ceq => "ceq"
  | .cgt => "cgt"
  | .clt => "clt"
  | .convI4 => "conv.i4"
  | .convI8 => "conv.i8"
  | .convR4 => "conv.r4"
  | .convR8 => "conv.r8"
  | .box => "box"
  | .unboxAny => "unbox.any"
  | .castclass => "castclass"
  | .isinst => "isinst"
  | .newarr => "newarr"
  | .ldlen => "ldlen"
  | .ldelem => "ldelem"
  | .stelem => "stelem"
  | .ldtoken => "ldtoken"
  | .ldftn => "ldftn"
  | .ldvirtftn => "ldvirtftn"

/-- The opcode with the mnemonic. -/
def ofMnemonic? (s : String) : Option Opcode :=
  all.find? (·.mnemonic == s)

/-- The mnemonic with a capital at its start and after each point, the points left out. -/
def capitalised : List Char → List Char
  | [] => []
  | '.' :: c :: cs => c.toUpper :: capitalised cs
  | c :: cs => c :: capitalised cs

/-- The tag of the opcode in dumps: its mnemonic in capitalised parts. There is one branch on
inequality only, whose tag does without the second part. -/
def tag : Opcode → String
  | .bne => "Bne"
  | op => String.ofList (capitalised ('.' :: op.mnemonic.toList))

end Opcode

end Weaving
