import Weaving.Cursor.Search
import Weaving.Event

/-!
# Edits

An edit works on a cursor, keeps a log, and may fail. What it changed before it failed stays
changed: an edit that promises to leave the cursor as it was has to see to that itself. The
caller may carry a state of its own along, which no operation of this library reads or writes;
an action handed to a repetition can use it.
-/

namespace Weaving

/-- What an edit works on. -/
structure Workspace (σ : Type) where
  cursor : Cursor
  /-- What was recorded, in the order in which it happened. -/
  log : List Event := []
  /-- The state of the caller. -/
  own : σ

/-- A computation that edits code. -/
abbrev Edit (σ : Type) := EStateM Error (Workspace σ)

namespace Edit

variable {σ : Type}

/-- The cursor as it is. -/
def cursor : Edit σ Cursor := do
  return (← get).cursor

/-- Put a cursor in place of the one there. -/
def setCursor (c : Cursor) : Edit σ Unit :=
  modify fun w => { w with cursor := c }

/-- Change the cursor. -/
def modifyCursor (f : Cursor → Cursor) : Edit σ Unit :=
  modify fun w => { w with cursor := f w.cursor }

/-- Change the code under the cursor. -/
def modifyCode (f : Code → Code) : Edit σ Unit :=
  modifyCursor fun c => { c with code := f c.code }

/-- Record an event in the log. -/
def record (e : Event) : Edit σ Unit :=
  modify fun w => { w with log := w.log ++ [e] }

@[simp] theorem cursor_apply (w : Workspace σ) : (cursor : Edit σ Cursor) w = .ok w.cursor w := rfl

@[simp] theorem setCursor_apply (c : Cursor) (w : Workspace σ) :
    setCursor c w = .ok () { w with cursor := c } := rfl

@[simp] theorem modifyCursor_apply (f : Cursor → Cursor) (w : Workspace σ) :
    modifyCursor f w = .ok () { w with cursor := f w.cursor } := rfl

@[simp] theorem modifyCode_apply (f : Code → Code) (w : Workspace σ) :
    modifyCode f w = .ok () { w with cursor := { w.cursor with code := f w.cursor.code } } := rfl

@[simp] theorem record_apply (e : Event) (w : Workspace σ) :
    record e w = .ok () { w with log := w.log ++ [e] } := rfl

/-- Go on with the value, or fail with the error. -/
def ofExcept {α : Type} : Except Error α → Edit σ α
  | .ok a => pure a
  | .error e => throw e

/-! ## Moves and searches -/

/-- Move by an offset, to a sentinel at the furthest. -/
def advance (offset : Int) : Edit σ Unit := modifyCursor (·.advance offset)

/-- Move to the first instruction. -/
def toFirst : Edit σ Unit := modifyCursor (·.toFirst)

/-- Move to the last instruction. -/
def toLast : Edit σ Unit := modifyCursor (·.toLast)

/-- Put the cursor where a search took it, and log the failure if it took it nowhere. -/
def land (c : Cursor) : Edit σ Unit := do
  setCursor c
  match c.failure with
  | none => pure ()
  | some failure => record (.searchFailed failure)

/-- Go to the nearest instruction that satisfies the predicate. -/
def search (direction : Direction) (holds : Instruction → Bool) : Edit σ Unit := do
  land ((← cursor).search direction holds)

/-- Go to the nearest match and remember what was searched for. -/
def find (q : Query) : Edit σ Unit := do
  land ((← cursor).find q)

end Edit

end Weaving
