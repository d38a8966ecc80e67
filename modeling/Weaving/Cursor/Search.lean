import Weaving.Cursor.Basic

/-!
# Searches

A search goes from the position to the nearest instruction that satisfies a predicate, a match to
the nearest place where a list of patterns matches in a row. Both start at the first instruction
when the cursor is before the code, and both end on a sentinel, with a failure, when there is no
such place.
-/

namespace Weaving

namespace Pattern

/-- The patterns match the instructions from the index on, one each. -/
def matchAll (patterns : List Pattern) (code : Code) (index : Nat) : Bool :=
  match patterns with
  | [] => true
  | p :: ps => p.matchesAt code index && matchAll ps code (index + 1)

/-- The instructions that the named patterns meet from the index on, added to the captures. -/
def capture (patterns : List Pattern) (code : Code) (index : Nat) (captures : Captures) :
    Captures :=
  match patterns with
  | [] => captures
  | p :: ps =>
    capture ps code (index + 1) <|
      match p.name, code[index]? with
      | some name, some i => captures.insert name i
      | _, _ => captures

end Pattern

namespace Cursor

/-- Where a search starts: at the position, or at the first instruction from before the code. -/
def searchStart (c : Cursor) : Int := max c.position 0

/-- The nearest index in the direction that the test accepts. -/
def nearest? (c : Cursor) (direction : Direction) (start : Int) (accepts : Nat → Bool) :
    Option Nat :=
  (direction.indices start c.length).find? accepts

/-- Go to the nearest instruction that satisfies the predicate. -/
def search (c : Cursor) (direction : Direction) (holds : Instruction → Bool) : Cursor :=
  match c.nearest? direction c.searchStart (fun i => c.code[i]?.any holds) with
  | some index => { c with position := index, failure := none }
  | none =>
    { c with
      position := direction.sentinel c.length
      failure := some (.instruction direction c.searchStart) }

/-- The nearest index from which the patterns match in a row. -/
def nearestMatch? (c : Cursor) (direction : Direction) (start : Int) (patterns : List Pattern) :
    Option Nat :=
  c.nearest? direction start (Pattern.matchAll patterns c.code)

/-- Go to the nearest match, searching from an index that may lie outside the code. -/
def findFrom (c : Cursor) (start : Int) (q : Query) : Cursor :=
  match c.nearestMatch? q.direction start q.patterns with
  | some index =>
    { c with
      position := (index + q.offset : Nat)
      captures := Pattern.capture q.patterns c.code index []
      failure := none }
  | none =>
    { c with
      position := q.direction.sentinel c.length
      captures := []
      failure := some (.sequence q.patterns q.direction start) }

/-- Go to the nearest match and remember what was searched for. -/
def find (c : Cursor) (q : Query) : Cursor :=
  { c.findFrom c.searchStart q with remembered := some q }

end Cursor

end Weaving
