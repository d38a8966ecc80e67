/-!
# Positions as words

Positions and offsets are 64-bit words with a sign. An index is a word without a sign, and is
read as one with a sign where a position is meant; sums of a position and an offset stop at the
ends of the range.
-/

namespace Weaving.Position

/-- The greatest position that a word holds. -/
def greatest : Int := 0x7fffffffffffffff

/-- The least position that a word holds. -/
def least : Int := -0x8000000000000000

/-- An index read as a position. -/
def ofIndex (index : Nat) : Int := Int.bmod index 0x10000000000000000

/-- The position kept within the range of a word. -/
def saturate (position : Int) : Int := max least (min position greatest)

/-- A small index is the position itself. -/
theorem ofIndex_eq {index : Nat} (h : index < 0x8000000000000000) : ofIndex index = index := by
  unfold ofIndex
  rw [Int.bmod_eq_of_le] <;> omega

/-- An index that is too great for a position is read as one below zero. -/
theorem ofIndex_of_le {index : Nat} (h : 0x8000000000000000 ≤ index)
    (hword : index < 0x10000000000000000) :
    ofIndex index = (index : Int) - 0x10000000000000000 := by
  have hmod : (index : Int) % (0x10000000000000000 : Nat) = index := by omega
  unfold ofIndex
  rw [Int.bmod_def, hmod, if_neg (by omega)]
  omega

end Weaving.Position
