import Weaving.Text.CharRange

/-!
# White space

The characters with the Unicode property `White_Space`. It is a wider class than the four blanks
of ASCII text: the no-break space and the line and paragraph separators belong to it, the zero
width space does not.
-/

namespace Weaving.Text

/-- The ranges of the property `White_Space`. -/
def whitespaceRanges : List CharRange :=
  [⟨0x9, 0xd⟩, ⟨0x20, 0x20⟩, ⟨0x85, 0x85⟩, ⟨0xa0, 0xa0⟩, ⟨0x1680, 0x1680⟩, ⟨0x2000, 0x200a⟩,
   ⟨0x2028, 0x2029⟩, ⟨0x202f, 0x202f⟩, ⟨0x205f, 0x205f⟩, ⟨0x3000, 0x3000⟩]

/-- The character has the property `White_Space`. -/
def isWhitespace (c : Char) : Bool :=
  CharRange.anyCovers whitespaceRanges c

end Weaving.Text
