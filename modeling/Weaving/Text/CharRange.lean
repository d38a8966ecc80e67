/-!
# Sets of characters given by ranges of code points

The character classes of this library are tables of ranges; a character is in the class when
some range covers its code point.
-/

namespace Weaving.Text

/-- The code points from `first` to `last`, both included. -/
structure CharRange where
  first : Nat
  last : Nat
deriving DecidableEq, Repr

namespace CharRange

/-- The range holds the character's code point. -/
def covers (r : CharRange) (c : Char) : Bool :=
  r.first ≤ c.toNat && c.toNat ≤ r.last

/-- Some range of the table holds the character's code point. -/
def anyCovers (table : List CharRange) (c : Char) : Bool :=
  table.any (·.covers c)

end CharRange

end Weaving.Text
