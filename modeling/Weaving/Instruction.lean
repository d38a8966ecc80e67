import Weaving.Operand

/-!
# Instructions

An instruction is an opcode with an operand, the labels that tag it as a branch target, and the
exception regions that start or end at it. Labels and region marks belong to the instruction and
not to a place in the code: they move with it and vanish with it.
-/

namespace Weaving

open Text

/-- The boundary of an exception region. -/
inductive RegionKind where
  | beginTry | beginCatch | beginFilter | beginFinally | beginFault
  | finish
deriving DecidableEq, Repr

namespace RegionKind

/-- All kinds of boundary. -/
def all : List RegionKind :=
  [.beginTry, .beginCatch, .beginFilter, .beginFinally, .beginFault, .finish]

/-- The tag of the boundary in listings and dumps. -/
def tag : RegionKind → String
  | .beginTry => "BeginTry"
  | .beginCatch => "BeginCatch"
  | .beginFilter => "BeginFilter"
  | .beginFinally => "BeginFinally"
  | .beginFault => "BeginFault"
  | .finish => "End"

/-- The boundary with the tag. -/
def ofTag? (s : String) : Option RegionKind :=
  all.find? (·.tag == s)

end RegionKind

/-- The mark of an exception region on an instruction; the start of a handler may name the type
that it catches. -/
structure RegionMark where
  kind : RegionKind
  caught : Option TypeRef
deriving DecidableEq, Repr

/-- The mark in dumps. -/
def RegionMark.dump (md : Metadata) (b : RegionMark) : String :=
  Dump.record "ExceptionBlock"
    [("kind", b.kind.tag), ("catch_type", Dump.optional (b.caught.map md.renderClass))]

/-- An instruction with its labels and its region marks. -/
structure Instruction where
  opcode : Opcode
  operand : Option Operand := none
  labels : List Label := []
  marks : List RegionMark := []
deriving DecidableEq

/-- Labels joined by further ones; a label that is there already is not repeated. -/
def joinTags (labels more : List Label) : List Label :=
  more.foldl (fun acc l => if l ∈ acc then acc else acc ++ [l]) labels

namespace Instruction

/-- The instructions are equal, with operands compared as values. -/
def agrees (a b : Instruction) : Bool :=
  a.opcode == b.opcode &&
    (match a.operand, b.operand with
      | none, none => true
      | some x, some y => x.agrees y
      | _, _ => false) &&
    a.labels == b.labels && a.marks == b.marks

/-! ## What an instruction does -/

/-- The labels that the instruction may go to; those in the operand of an instruction that is no
branch do not count. -/
def targets (i : Instruction) : List Label :=
  if i.opcode.isBranch then
    match i.operand with
    | some (.label l) => [l]
    | some (.labels ls) => ls
    | _ => []
  else []

/-- The first instruction may go to the second: one of its branch targets tags it. -/
def branchesTo (source target : Instruction) : Bool :=
  target.labels.any (· ∈ source.targets)

/-- The instruction may go to some label. -/
def isBranch (i : Instruction) : Bool := !i.targets.isEmpty

/-- The labels of the instruction that editing keeps apart: its tags and its branch targets. -/
def mentioned (i : Instruction) : List Label := i.labels ++ i.targets

/-- The method that the instruction calls. -/
def callee? (i : Instruction) : Option MethodRef :=
  if i.opcode.isCall then i.operand.bind Operand.method? else none

/-- The instruction calls the method. -/
def calls (i : Instruction) (m : MethodRef) : Bool := i.callee? == some m

/-- The instruction pushes a constant. -/
def loadsConstant (i : Instruction) : Bool := i.opcode.pushesConstant

/-- The instruction pushes the given constant. -/
def loads (i : Instruction) (value : Operand) : Bool :=
  i.opcode.pushesConstant && i.operand.any (·.agrees value)

/-- The operand is the slot; without a slot to compare with, every operand will do. -/
def hasSlot (i : Instruction) (slot : Option UInt16) : Bool :=
  match slot with
  | none => true
  | some n => i.operand.bind Operand.slot? == some n

/-- The instruction pushes an argument, that of the given slot if there is one. -/
def readsArgument (i : Instruction) (slot : Option UInt16) : Bool :=
  i.opcode == .ldarg && i.hasSlot slot

/-- The instruction stores an argument, that of the given slot if there is one. -/
def writesArgument (i : Instruction) (slot : Option UInt16) : Bool :=
  i.opcode == .starg && i.hasSlot slot

/-- The instruction pushes a local variable, that of the given slot if there is one. -/
def readsLocal (i : Instruction) (slot : Option UInt16) : Bool :=
  i.opcode == .ldloc && i.hasSlot slot

/-- The instruction stores a local variable, that of the given slot if there is one. -/
def writesLocal (i : Instruction) (slot : Option UInt16) : Bool :=
  i.opcode == .stloc && i.hasSlot slot

/-- The instruction pushes the value of the field. -/
def readsField (i : Instruction) (f : FieldRef) : Bool :=
  (i.opcode == .ldfld || i.opcode == .ldsfld) && i.operand.bind Operand.field? == some f

/-- The instruction stores into the field. -/
def writesField (i : Instruction) (f : FieldRef) : Bool :=
  (i.opcode == .stfld || i.opcode == .stsfld) && i.operand.bind Operand.field? == some f

/-! ## Labels and region marks -/

/-- The instruction with further labels, none of them repeated. -/
def addTags (i : Instruction) (labels : List Label) : Instruction :=
  { i with labels := joinTags i.labels labels }

/-- Move the labels of the first instruction to the second. -/
def moveLabels (source target : Instruction) : Instruction × Instruction :=
  ({ source with labels := [] }, target.addTags source.labels)

/-- Move the region marks of the first instruction behind those of the second. -/
def moveMarks (source target : Instruction) : Instruction × Instruction :=
  ({ source with marks := [] }, { target with marks := target.marks ++ source.marks })

/-! ## Text -/

/-- The instruction in listings: its labels, the mnemonic, the operand, its region marks. -/
def render (md : Metadata) (i : Instruction) : String :=
  String.join (i.labels.map fun l => l.render ++ ": ") ++ i.opcode.mnemonic ++
    (i.operand.elim "" fun o => " " ++ o.render md) ++
    String.join (i.marks.map fun b => " [" ++ b.kind.tag ++ "]")

/-- The instruction in dumps. -/
def dump (md : Metadata) (i : Instruction) : String :=
  Dump.record "Instruction"
    [("opcode", i.opcode.tag), ("operand", Dump.optional (i.operand.map (·.dump md))),
     ("labels", Label.renderAll i.labels), ("blocks", Dump.sequence (i.marks.map (·.dump md)))]

end Instruction

end Weaving
