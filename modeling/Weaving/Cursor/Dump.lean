import Weaving.Cursor.Basic

/-!
# Dumps of cursors

The whole state of a cursor in the notation of dumps.
-/

namespace Weaving

open Text

/-- The settings in dumps. -/
def Settings.dump (s : Settings) : String :=
  Dump.record "Settings"
    [("verify_labels", Dump.truth s.checkLabels),
     ("log_reported_failures", Dump.truth s.logReports)]

/-- The search in dumps. -/
def Query.dump (md : Metadata) (q : Query) : String :=
  Dump.record "LastMatch"
    [("patterns", Pattern.dumpAll md q.patterns), ("use_end", Dump.truth q.atEnd),
     ("direction", q.direction.tag)]

/-- The cursor in dumps. -/
def Cursor.dump (md : Metadata) (c : Cursor) : String :=
  Dump.record "CodeCursor"
    [("instructions", Dump.sequence (c.code.map (·.dump md))),
     ("position", toString c.position),
     ("last_matches", Dump.table (c.captures.map fun e => (Quoted.quote e.1, e.2.dump md))),
     ("last_error", Dump.optional (c.failure.map fun f => Quoted.quote (f.message md))),
     ("last_match", Dump.optional (c.remembered.map (·.dump md))),
     ("label_generator", c.fresh.dump),
     ("settings", c.settings.dump)]

end Weaving
