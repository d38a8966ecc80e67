import Weaving.Text.CharRange

/-!
# Characters that may be left out of a line

The characters with the Unicode property `Default_Ignorable_Code_Point`: joiners, selectors,
fillers and the like, for which nothing is drawn. A few of them, the Hangul fillers, are letters.
-/

namespace Weaving.Text

/-- The ranges of the property `Default_Ignorable_Code_Point`, in ascending order. -/
def defaultIgnorableRanges : List CharRange :=
  [⟨0xad, 0xad⟩, ⟨0x34f, 0x34f⟩, ⟨0x61c, 0x61c⟩, ⟨0x115f, 0x1160⟩, ⟨0x17b4, 0x17b5⟩,
   ⟨0x180b, 0x180f⟩, ⟨0x200b, 0x200f⟩, ⟨0x202a, 0x202e⟩, ⟨0x2060, 0x206f⟩, ⟨0x3164, 0x3164⟩,
   ⟨0xfe00, 0xfe0f⟩, ⟨0xfeff, 0xfeff⟩, ⟨0xffa0, 0xffa0⟩, ⟨0xfff0, 0xfff8⟩, ⟨0x1bca0, 0x1bca3⟩,
   ⟨0x1d173, 0x1d17a⟩, ⟨0xe0000, 0xe0fff⟩]

/-- Nothing is drawn for the character. -/
def isDefaultIgnorable (c : Char) : Bool :=
  CharRange.anyCovers defaultIgnorableRanges c

end Weaving.Text
