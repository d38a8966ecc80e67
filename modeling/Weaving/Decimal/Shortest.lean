import Weaving.Decimal.Binary

/-!
# The shortest decimal of a magnitude

The decimal with the fewest digits among those that read back as the same magnitude, and of those
with that many digits the nearest; of two equally near the larger. A decimal reads back when it
lies in the interval of reals that round to the magnitude. The ends of the interval are half way
to the neighbouring magnitudes and belong to it when the significand is even.
-/

namespace Weaving.Decimal

/-- The decimal `0.d₁d₂… * 10 ^ point`. -/
structure Digits where
  digits : List Char
  point : Int
deriving DecidableEq, Repr

namespace Digits

/-- The decimal zero, one digit before the point. -/
def zero : Digits := ⟨['0'], 1⟩

/-- The digits of `coefficient * 10 ^ exponent`, without zeros at the end. -/
def ofCoefficient (coefficient : Nat) (exponent : Int) : Digits :=
  let all := Nat.toDigits 10 coefficient
  ⟨(all.reverse.dropWhile (· == '0')).reverse, exponent + all.length⟩

/-- The exponent in scientific notation, with one digit before the point. -/
def scientificExponent (d : Digits) : Int := d.point - 1

end Digits

/-- The reals that round to one magnitude, as fractions with a common denominator. -/
structure Interval where
  low : Nat
  mid : Nat
  high : Nat
  denominator : Nat
  /-- The ends belong to the interval. -/
  closed : Bool

namespace Interval

/-- The interval of a magnitude. Places are counted in quarters of the last place of the
significand, which makes the half way points whole numbers. -/
def ofMagnitude (m : Magnitude) : Interval :=
  let quarters := 4 * m.significand
  let scale := Nat.pow 2 (m.exponent - 2).toNat
  { low := (quarters - if m.narrowBelow then 1 else 2) * scale
    mid := quarters * scale
    high := (quarters + 2) * scale
    denominator := Nat.pow 2 (2 - m.exponent).toNat
    closed := m.significand % 2 == 0 }

/-- The number of decimal digits of a positive number. -/
def digitCount (n : Nat) : Nat := (Nat.toDigits 10 n).length

/-- The exponent `k` with `10 ^ (k - 1) ≤ mid < 10 ^ k`, for a positive magnitude. -/
def point (i : Interval) : Int :=
  if i.denominator ≤ i.mid then digitCount (i.mid / i.denominator)
  else 1 - digitCount ((i.denominator - 1) / i.mid)

/-- The interval measured in units of `10 ^ exponent`. -/
def inUnits (i : Interval) (exponent : Int) : Interval :=
  let factor := Nat.pow 10 (-exponent).toNat
  { i with
    low := i.low * factor
    mid := i.mid * factor
    high := i.high * factor
    denominator := i.denominator * Nat.pow 10 exponent.toNat }

/-- The whole number lies in the interval. -/
def holds (i : Interval) (n : Nat) : Bool :=
  let x := n * i.denominator
  if i.closed then i.low ≤ x && x ≤ i.high else i.low < x && x < i.high

/-- The whole number of the interval nearest to its middle, if one of the two next to the middle
is in it. Of two equally near the larger is taken. -/
def nearestWhole? (i : Interval) : Option Nat :=
  let below := i.mid / i.denominator
  match i.holds below, i.holds (below + 1) with
  | false, false => none
  | true, false => some below
  | false, true => some (below + 1)
  | true, true =>
    if i.mid - below * i.denominator < (below + 1) * i.denominator - i.mid then some below
    else some (below + 1)

/-- Try `count` digits, then more, at most `extra` times more. -/
def shortestFrom (i : Interval) (count : Nat) : (extra : Nat) → Digits
  | 0 =>
    let exponent := i.point - count
    .ofCoefficient ((i.inUnits exponent).mid / (i.inUnits exponent).denominator) exponent
  | extra + 1 =>
    let exponent := i.point - count
    match (i.inUnits exponent).nearestWhole? with
    | some n => .ofCoefficient n exponent
    | none => shortestFrom i (count + 1) extra

end Interval

/-- The shortest decimal that reads back as the magnitude. Seventeen digits are enough for every
magnitude of the two formats. -/
def Magnitude.shortest (m : Magnitude) : Digits :=
  if m.significand = 0 then .zero
  else (Interval.ofMagnitude m).shortestFrom 1 17

end Weaving.Decimal
