import Weaving.MethodPattern
import Weaving.Direction
import Weaving.Pattern

/-!
# Failed searches

A search that finds nothing is no error: the cursor goes to a sentinel and keeps the failure, to
be reported or raised later if the caller wants so.
-/

namespace Weaving

/-- What was searched for in vain, and from where. -/
inductive Failure where
  /-- No instruction satisfied the predicate. -/
  | instruction (direction : Direction) (start : Int)
  /-- Nowhere did the patterns match in a row. -/
  | sequence (patterns : List Pattern) (direction : Direction) (start : Int)
  /-- The values that a call takes are not pushed in the code before it. -/
  | argumentLoad (count : Nat) (target : MethodPattern) (call : Nat)

namespace Failure

/-- The sentence that reports the failure. -/
def message (md : Metadata) : Failure → String
  | .instruction direction start =>
    "no matching instruction searching " ++ direction.word ++ " from position " ++ toString start
  | .sequence patterns direction start =>
    "cannot find " ++ Pattern.dumpAll md patterns ++ " searching " ++ direction.word ++
      " from position " ++ toString start
  | .argumentLoad count target call =>
    "cannot find where the " ++ toString count ++ " arguments of the call to " ++
      target.render md ++ " at " ++ toString call ++ " are loaded"

/-- The sentence for a cursor that is on no instruction; without a failed search it only says
so. -/
def messageOrRange (md : Metadata) : Option Failure → String
  | some f => f.message md
  | none => "cursor is out of range"

end Failure

end Weaving
