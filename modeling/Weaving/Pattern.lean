import Weaving.Code

/-!
# Patterns

A pattern describes one instruction to look for. It is either an arbitrary predicate or a set of
constraints, each of which allows a list of alternatives; a constraint without alternatives
allows everything. A pattern may have a name, under which a match records the instruction that it
met.
-/

namespace Weaving

open Text

/-- Alternatives for the parts of an instruction. -/
structure Constraints where
  /-- The opcode is one of these. -/
  opcodes : List Opcode := []
  /-- The operand agrees with one of these. -/
  operands : List Operand := []
  /-- One of these labels tags the instruction. -/
  labels : List Label := []
  /-- The instruction has one of these region marks. -/
  marks : List RegionMark := []
  /-- An instruction at one of these indices branches to the instruction. -/
  jumpsFrom : List Nat := []
  /-- The instruction branches to an instruction at one of these indices. -/
  jumpsTo : List Nat := []

namespace Constraints

/-- The constraints with the alternatives of further ones added. Opcodes are a set and are not
repeated; the other alternatives keep their order. -/
def join (c more : Constraints) : Constraints where
  opcodes := more.opcodes.foldl (fun acc op => if op ∈ acc then acc else acc ++ [op]) c.opcodes
  operands := c.operands ++ more.operands
  labels := c.labels ++ more.labels
  marks := c.marks ++ more.marks
  jumpsFrom := c.jumpsFrom ++ more.jumpsFrom
  jumpsTo := c.jumpsTo ++ more.jumpsTo

/-- The labels that the instructions of the code at the indices in `jumpsFrom` may go to. -/
def incoming (c : Constraints) (code : Code) : List Label :=
  (c.jumpsFrom.filterMap (code[·]?)).flatMap (·.targets)

/-- The instruction meets every constraint. The code is needed to follow jumps, which are given
by indices; an index outside the code is no alternative. -/
def allow (c : Constraints) (code : Code) (i : Instruction) : Bool :=
  (c.opcodes.isEmpty || i.opcode ∈ c.opcodes) &&
  (c.operands.isEmpty || i.operand.any fun o => c.operands.any (·.agrees o)) &&
  (c.labels.isEmpty || i.labels.any (· ∈ c.labels)) &&
  (c.marks.isEmpty || i.marks.any (· ∈ c.marks)) &&
  (c.jumpsFrom.isEmpty || i.labels.any (· ∈ c.incoming code)) &&
  (c.jumpsTo.isEmpty || (c.jumpsTo.filterMap (code[·]?)).any (i.branchesTo ·))

end Constraints

/-- How a pattern decides. -/
inductive Test where
  | predicate (holds : Instruction → Bool)
  | constraints (c : Constraints)

/-- A description of one instruction. -/
structure Pattern where
  name : Option String := none
  test : Test := .constraints {}

namespace Pattern

/-- The pattern that every instruction matches. -/
def any : Pattern := {}

/-- The pattern of a predicate. -/
def predicate (holds : Instruction → Bool) : Pattern := { test := .predicate holds }

/-- The pattern of an opcode. -/
def opcode (op : Opcode) : Pattern := { test := .constraints { opcodes := [op] } }

/-- The pattern of an opcode with an operand. -/
def instruction (op : Opcode) (o : Operand) : Pattern :=
  { test := .constraints { opcodes := [op], operands := [o] } }

/-- Calls of a method. -/
def calls (m : MethodRef) : Pattern := predicate (·.calls m)

/-- Branches with a target. -/
def branches : Pattern := predicate (·.isBranch)

/-- Loads of a constant. -/
def loadsConstant : Pattern := predicate (·.loadsConstant)

/-- Loads of a field. -/
def readsField (f : FieldRef) : Pattern := predicate (·.readsField f)

/-- Stores into a field. -/
def writesField (f : FieldRef) : Pattern := predicate (·.writesField f)

/-- Loads of an argument. -/
def readsArgument : Pattern := opcode .ldarg

/-- Loads of a local variable. -/
def readsLocal : Pattern := opcode .ldloc

/-- Stores into a local variable. -/
def writesLocal : Pattern := opcode .stloc

/-- The pattern under a name. -/
def named (p : Pattern) (name : String) : Pattern := { p with name := some name }

/-- The pattern with its constraints changed. A predicate decides alone and stays as it is. -/
def constrain (p : Pattern) (f : Constraints → Constraints) : Pattern :=
  match p.test with
  | .predicate _ => p
  | .constraints c => { p with test := .constraints (f c) }

/-- The pattern with one more index among those from which the instruction is jumped to. -/
def jumpsFrom (p : Pattern) (index : Nat) : Pattern := p.constrain (·.join { jumpsFrom := [index] })

/-- The pattern with one more index among those to which the instruction jumps. -/
def jumpsTo (p : Pattern) (index : Nat) : Pattern := p.constrain (·.join { jumpsTo := [index] })

/-- The instruction at the index matches the pattern. No pattern matches outside the code. -/
def matchesAt (p : Pattern) (code : Code) (index : Nat) : Bool :=
  match code[index]? with
  | none => false
  | some i =>
    match p.test with
    | .predicate holds => holds i
    | .constraints c => c.allow code i

/-- The constraints in dumps, those with alternatives only. -/
def constraintFields (md : Metadata) (c : Constraints) : List (String × String) :=
  let field {α : Type} (label : String) (show? : α → String) (xs : List α) :=
    if xs.isEmpty then [] else [(label, Dump.sequence (xs.map show?))]
  field "opcodes" Quoted.quote ((c.opcodes.map (·.mnemonic)).mergeSort (fun a b => a ≤ b)) ++
    field "operands" (·.dump md) c.operands ++
    field "labels" (·.render) c.labels ++
    field "blocks" (·.dump md) c.marks ++
    field "jumps_from" toString c.jumpsFrom ++
    field "jumps_to" toString c.jumpsTo

/-- The pattern in dumps. A predicate has no text and is only shown to be there. -/
def dump (md : Metadata) (p : Pattern) : String :=
  let name := match p.name with
    | none => []
    | some name => [("name", Quoted.quote name)]
  let test := match p.test with
    | .predicate _ => [("predicate", Quoted.quote "<fn>")]
    | .constraints c => constraintFields md c
  Dump.record "CodeMatch" (name ++ test)

/-- Patterns in dumps. -/
def dumpAll (md : Metadata) (ps : List Pattern) : String :=
  Dump.sequence (ps.map (·.dump md))

end Pattern

end Weaving
