import Weaving.Decimal.Shortest

/-!
# Layouts of numbers

How the digits of a number are set out: positionally or with an exponent, with or without a
fraction when the number is whole.
-/

namespace Weaving.Decimal

/-- The choices of a number format. -/
structure Layout where
  /-- A whole number in positional notation gets the fraction `.0`. -/
  markWhole : Bool
  /-- The scientific exponents that are written positionally; `none` stands for all of them. -/
  positional : Option (Int × Int)
deriving DecidableEq, Repr

namespace Layout

/-- The digits with the point at its place, zeros filling the gap on either side. -/
def writePositional (layout : Layout) (d : Digits) : List Char :=
  let count : Int := d.digits.length
  if d.point ≤ 0 then
    ['0', '.'] ++ List.replicate (-d.point).toNat '0' ++ d.digits
  else if count ≤ d.point then
    d.digits ++ List.replicate (d.point - count).toNat '0' ++
      (if layout.markWhole then ['.', '0'] else [])
  else
    d.digits.take d.point.toNat ++ ['.'] ++ d.digits.drop d.point.toNat

/-- One digit before the point, the others after it, then `e` and the exponent. -/
def writeScientific (d : Digits) : List Char :=
  let fraction := d.digits.drop 1
  d.digits.take 1 ++ (if fraction.isEmpty then [] else '.' :: fraction) ++
    'e' :: (toString d.scientificExponent).toList

/-- The digits in the notation that the layout prescribes for their exponent. -/
def writeDigits (layout : Layout) (d : Digits) : List Char :=
  match layout.positional with
  | none => layout.writePositional d
  | some (least, greatest) =>
    if least ≤ d.scientificExponent ∧ d.scientificExponent ≤ greatest then
      layout.writePositional d
    else
      writeScientific d

/-- A number in the layout. A minus sign stands before negative numbers, negative zero among
them; what is not a number has no sign. -/
def write (layout : Layout) : Number → String
  | .notANumber => "NaN"
  | .infinite negative => if negative then "-inf" else "inf"
  | .finite negative magnitude =>
    let digits := layout.writeDigits magnitude.shortest
    String.ofList (if negative then '-' :: digits else digits)

end Layout

end Weaving.Decimal
