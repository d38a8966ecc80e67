import Weaving.Error

/-!
# Cursors

A cursor is some code with a position in it. The position ranges from `-1` to the length of the
code: the two ends are sentinels, before the first and past the last instruction, where searches
stop that find nothing. A new cursor is on the sentinel before the code.

The cursor also remembers what it needs to go on: the instructions that the named patterns of the
last match met, the failure of the last search, the last match, so that it can be repeated, and
the labels not yet given out.
-/

namespace Weaving

/-- The choices of an editing session. -/
structure Settings where
  /-- Finished code has to be well labelled. -/
  checkLabels : Bool := true
  /-- Reported failures are logged too. -/
  logReports : Bool := true
deriving DecidableEq, Repr

/-- Instructions by the names of the patterns that met them. -/
abbrev Captures := List (String × Instruction)

namespace Captures

/-- Record an instruction under a name, in place of any that was there. -/
def insert (captures : Captures) (name : String) (i : Instruction) : Captures :=
  captures.filter (·.1 != name) ++ [(name, i)]

/-- The instruction under the name. -/
def get? (captures : Captures) (name : String) : Option Instruction :=
  captures.lookup name

end Captures

/-- A search for patterns that match in a row. -/
structure Query where
  patterns : List Pattern
  /-- The search goes to the last instruction of a match and not to its first. -/
  atEnd : Bool
  direction : Direction

namespace Query

/-- The distance from the first instruction of a match to the one that the search goes to. -/
def offset (q : Query) : Nat :=
  if q.atEnd then q.patterns.length - 1 else 0

/-- Where the search goes on after a match was handled that left the cursor at the position. A
backward search starts in front of the whole match, so that it does not find it again. -/
def restart (q : Query) (position : Int) : Int :=
  match q.direction with
  | .forward => position + 1
  | .backward => position - q.offset - 1

end Query

/-- Code with a position in it. -/
structure Cursor where
  code : Code
  position : Int := -1
  captures : Captures := []
  failure : Option Failure := none
  remembered : Option Query := none
  fresh : LabelSupply
  settings : Settings := {}

namespace Cursor

/-- A cursor before the first instruction. -/
def ofCode (code : Code) (settings : Settings := {}) : Cursor :=
  { code, fresh := code.freshLabels, settings }

/-! ## Queries -/

/-- The number of instructions. -/
def length (c : Cursor) : Nat := c.code.length

/-- The index that lies `offset` away from the position, if it is in the code. -/
def indexAt? (c : Cursor) (offset : Int) : Option Nat :=
  let index := c.position + offset
  if 0 ≤ index ∧ index < c.length then some index.toNat else none

/-- The cursor is on an instruction. -/
def isValid (c : Cursor) : Bool := 0 ≤ c.position && c.position < c.length

/-- The number of instructions from the position to the end. -/
def remaining (c : Cursor) : Nat := c.length - c.position.toNat

/-- The instruction that lies `offset` away from the position. -/
def peek (c : Cursor) (offset : Int) : Option Instruction :=
  (c.indexAt? offset).bind (c.code[·]?)

/-- The instruction at the position. -/
def instruction? (c : Cursor) : Option Instruction := c.peek 0

/-- The opcode at the position. -/
def opcode? (c : Cursor) : Option Opcode := c.instruction?.map (·.opcode)

/-- The operand at the position. -/
def operand? (c : Cursor) : Option Operand := c.instruction?.bind (·.operand)

/-- The labels at the position. -/
def labels (c : Cursor) : List Label := c.instruction?.elim [] (·.labels)

/-- The region marks at the position. -/
def marks (c : Cursor) : List RegionMark := c.instruction?.elim [] (·.marks)

/-- The instructions between two indices, both included and in either order. -/
def between? (c : Cursor) (a b : Nat) : Option Code :=
  if max a b < c.length then some (c.code.slice (min a b) (max a b)) else none

/-- The instructions between two offsets from the position, both included and in either order. -/
def betweenOffsets? (c : Cursor) (a b : Int) : Option Code :=
  match c.indexAt? a, c.indexAt? b with
  | some i, some j => c.between? i j
  | _, _ => none

/-- The check that the code is well labelled. -/
def checkLabels (c : Cursor) : Except Error Unit :=
  match c.code.labelFault? with
  | none => .ok ()
  | some fault => .error (.labels fault)

/-- The edited code. It is checked first if the settings say so. -/
def finish (c : Cursor) : Except Error Code :=
  if c.settings.checkLabels then c.checkLabels.map fun _ => c.code else .ok c.code

/-! ## Moves -/

/-- Move by an offset, to a sentinel at the furthest. -/
def advance (c : Cursor) (offset : Int) : Cursor :=
  { c with position := max (-1) (min (c.position + offset) c.length) }

/-- Move to the first instruction. -/
def toFirst (c : Cursor) : Cursor := { c with position := 0 }

/-- Move to the last instruction. -/
def toLast (c : Cursor) : Cursor := { c with position := c.length - 1 }

end Cursor

end Weaving
