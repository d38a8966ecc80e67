/-!
# Dumps of values

The one-line notation in which structured values appear in messages. A value is dumped from the
dumps of its parts: a record as its name with labelled fields in braces, a tagged value as its
tag with the parts in parentheses, a sequence in brackets, a table in braces.
-/

namespace Weaving.Text.Dump

/-- Parts with a comma and a blank between them. -/
def commaSeparated (parts : List String) : String :=
  ", ".intercalate parts

/-- A labelled part. -/
def labelled (label value : String) : String :=
  label ++ ": " ++ value

/-- A record: its name alone when it has no field, otherwise the name and the fields in braces. -/
def record (name : String) (fields : List (String × String)) : String :=
  match fields with
  | [] => name
  | _ => name ++ " \x7b " ++ commaSeparated (fields.map fun f => labelled f.1 f.2) ++ " \x7d"

/-- A tag with its parts in parentheses. -/
def tagged (tag : String) (parts : List String) : String :=
  tag ++ "(" ++ commaSeparated parts ++ ")"

/-- A sequence in brackets. -/
def sequence (parts : List String) : String :=
  "[" ++ commaSeparated parts ++ "]"

/-- A value that may be absent. -/
def optional : Option String → String
  | none => "None"
  | some value => tagged "Some" [value]

/-- A table from keys to values, in braces. -/
def table (entries : List (String × String)) : String :=
  "\x7b" ++ commaSeparated (entries.map fun e => labelled e.1 e.2) ++ "\x7d"

/-- A truth value. -/
def truth (b : Bool) : String :=
  if b then "true" else "false"

end Weaving.Text.Dump
