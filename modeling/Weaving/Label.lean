import Weaving.Text.Dump

/-!
# Labels

A label ties a branch to the instruction it goes to: it is the operand of the one and a tag of
the other. Labels are numbered by words, and a supply hands out their numbers in order. Behind the
last label the numbers start again, so a supply hands out each of them once only as long as it does
not come to the last.
-/

namespace Weaving

open Text

/-- A numbered label. -/
structure Label where
  id : UInt64
deriving DecidableEq, Repr

namespace Label

/-- The label with the highest number that a word can hold. -/
def last : Label := ⟨0xffffffffffffffff⟩

/-- The label with the next number, which is zero behind the last. -/
def next (l : Label) : Label := ⟨l.id + 1⟩

/-- The label in listings. -/
def render (l : Label) : String := "l" ++ toString l.id

/-- Labels in listings. -/
def renderAll (ls : List Label) : String := Dump.sequence (ls.map render)

/-- The labels are in the order of their numbers. -/
def le (a b : Label) : Bool := a.id ≤ b.id

/-- The label with the highest number. -/
def highest? : List Label → Option Label
  | [] => none
  | l :: ls => some ((highest? ls).elim l fun m => if m.le l then l else m)

end Label

/-- A source of labels, which hands out `next` and all that follow it. -/
structure LabelSupply where
  next : Label
deriving DecidableEq, Repr

namespace LabelSupply

/-- The supply of all labels. -/
def all : LabelSupply := ⟨⟨0⟩⟩

/-- The next label, and the supply without it. -/
def take (s : LabelSupply) : Label × LabelSupply :=
  (s.next, ⟨s.next.next⟩)

/-- The supply without the labels up to and including `l`. -/
def past (s : LabelSupply) (l : Label) : LabelSupply :=
  if s.next.id ≤ l.id then ⟨l.next⟩ else s

/-- The supply without the labels up to and including the highest of `ls`. -/
def pastAll (s : LabelSupply) (ls : List Label) : LabelSupply :=
  (Label.highest? ls).elim s s.past

/-- The supply in dumps. -/
def dump (s : LabelSupply) : String :=
  Dump.tagged "SeqLabelGenerator" [s.next.render]

end LabelSupply

end Weaving
