import Weaving.Argument
import Weaving.Failure

/-!
# The log

What the operations record about their work, for whoever follows a session. An event is kept as
what happened; its level and its wording are in one place.
-/

namespace Weaving

/-- The report of a cursor that is on no instruction, for whoever runs the edit. -/
structure Report where
  context : String
  failure : Option Failure

/-- The sentence of the report. -/
def Report.message (md : Metadata) (r : Report) : String :=
  "Match failed in " ++ r.context ++ ": " ++ Failure.messageOrRange md r.failure

/-- How much an event matters. -/
inductive Level where
  | trace
  | debug
  | warn
deriving DecidableEq, Repr

/-- The level in the log. -/
def Level.tag : Level → String
  | .trace => "TRACE"
  | .debug => "DEBUG"
  | .warn => "WARN"

/-- Something worth recording. -/
inductive Event where
  | searchFailed (failure : Failure)
  | repeated (count : Nat) (patterns : List Pattern)
  | failureReported (report : Report)
  | callFound (target : MethodPattern) (index : Nat)
  | argumentsFound (target : MethodPattern) (call start : Nat)
  | loading (argument : Argument)
  | callInserted (m : MethodRef)

namespace Event

/-- How much the event matters. -/
def level : Event → Level
  | .searchFailed _ | .loading _ => .trace
  | .repeated _ _ | .callFound _ _ | .argumentsFound _ _ _ | .callInserted _ => .debug
  | .failureReported _ => .warn

/-- The sentence that records the event. -/
def message (md : Metadata) : Event → String
  | .searchFailed failure => failure.message md
  | .repeated count patterns =>
    "repeated action at " ++ toString count ++ " matches of " ++ Pattern.dumpAll md patterns
  | .failureReported report => report.message md
  | .callFound target index => "found call to " ++ target.render md ++ " at " ++ toString index
  | .argumentsFound target call start =>
    "arguments of call to " ++ target.render md ++ " at " ++ toString call ++ " start at " ++
      toString start
  | .loading argument => "loading " ++ argument.dump md
  | .callInserted m => "inserted call to " ++ md.renderMethod m

end Event

end Weaving
