/-!
# Directions of a search

A search visits the indices of the code from a start on, upwards or downwards. When it runs out
of instructions it ends on the sentinel of its direction: one past the last index, or one before
the first.
-/

namespace Weaving

/-- The direction of a search. -/
inductive Direction where
  | forward
  | backward
deriving DecidableEq, Repr

namespace Direction

/-- Where a search of code of this length ends when it finds nothing. -/
def sentinel (length : Nat) : Direction → Int
  | .forward => length
  | .backward => -1

/-- The indices that a search visits, in order. A start outside the code visits none. -/
def indices (start : Int) (length : Nat) : Direction → List Nat
  | .forward => if 0 ≤ start then List.range' start.toNat (length - start.toNat) else []
  | .backward =>
    if 0 ≤ start ∧ start < length then (List.range (start.toNat + 1)).reverse else []

/-- The direction in messages. -/
def word : Direction → String
  | .forward => "forward"
  | .backward => "backward"

/-- The tag of the direction in dumps. -/
def tag : Direction → String
  | .forward => "Forward"
  | .backward => "Backward"

end Direction

end Weaving
