/-!
# Binary floating point words

A floating point constant is kept as the word that encodes it, so that every bit of it survives
editing. A word is read in its interchange format as not a number, an infinity, or a sign with a
magnitude `significand * 2 ^ exponent`. Comparison is by number: zeros of both signs are equal,
and a word that is not a number differs from every word, itself included.
-/

namespace Weaving.Decimal

/-- A magnitude `significand * 2 ^ exponent`. -/
structure Magnitude where
  significand : Nat
  exponent : Int
  /-- The next smaller magnitude of the format is half as far away as the next larger one. -/
  narrowBelow : Bool
deriving DecidableEq, Repr

/-- What a floating point word stands for. -/
inductive Number where
  | notANumber
  | infinite (negative : Bool)
  | finite (negative : Bool) (magnitude : Magnitude)
deriving DecidableEq, Repr

/-- Equality of numbers as the arithmetic sees it. -/
def Number.agrees : Number → Number → Bool
  | .infinite s, .infinite t => s == t
  | .finite s m, .finite t n => (m.significand == 0 && n.significand == 0) || (s == t && m == n)
  | _, _ => false

/-- An interchange format: a sign bit, an exponent field and a fraction field. -/
structure Format where
  exponentBits : Nat
  fractionBits : Nat
deriving DecidableEq, Repr

namespace Format

/-- The format of 32-bit words. -/
def single : Format := ⟨8, 23⟩

/-- The format of 64-bit words. -/
def double : Format := ⟨11, 52⟩

/-- The exponent of the last place of the numbers with the least exponent field. -/
def leastExponent (f : Format) : Int :=
  2 - (Nat.pow 2 (f.exponentBits - 1) : Nat) - f.fractionBits

/-- Read a word. An exponent field of ones marks infinities and words that are no number, one of
zeros the numbers without the implicit leading bit. -/
def read (f : Format) (word : Nat) : Number :=
  let fraction := word % Nat.pow 2 f.fractionBits
  let field := word / Nat.pow 2 f.fractionBits % Nat.pow 2 f.exponentBits
  let negative := word / Nat.pow 2 (f.fractionBits + f.exponentBits) % 2 == 1
  if field = Nat.pow 2 f.exponentBits - 1 then
    if fraction = 0 then .infinite negative else .notANumber
  else if field = 0 then
    .finite negative ⟨fraction, f.leastExponent, false⟩
  else
    .finite negative
      ⟨Nat.pow 2 f.fractionBits + fraction, f.leastExponent + (field - 1 : Nat),
        fraction == 0 && field != 1⟩

end Format

/-- A floating point number as its 32-bit word. -/
structure Binary32 where
  bits : UInt32
deriving DecidableEq

/-- A floating point number as its 64-bit word. -/
structure Binary64 where
  bits : UInt64
deriving DecidableEq

/-- The number that the word encodes. -/
def Binary32.number (x : Binary32) : Number :=
  Format.single.read x.bits.toNat

/-- The number that the word encodes. -/
def Binary64.number (x : Binary64) : Number :=
  Format.double.read x.bits.toNat

end Weaving.Decimal
