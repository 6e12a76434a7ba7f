/-!
# Binary floating point

A floating-point number as its bits, in a format given by the widths of its exponent and its
fraction. A finite number is `mantissa * 2 ^ exponent`; reading it off the bits and rounding a
fraction of natural numbers to the nearest number of the format are both exact.
-/

namespace Graft.Number

/-- A binary format: a sign, an exponent and a fraction. -/
structure BinaryFormat where
  exponentBits : Nat
  fractionBits : Nat
  deriving DecidableEq, Repr

namespace BinaryFormat

/-- Thirty-two bits. -/
def single : BinaryFormat := ⟨8, 23⟩

/-- Sixty-four bits. -/
def double : BinaryFormat := ⟨11, 52⟩

variable (f : BinaryFormat)

/-- The weight of the sign bit. -/
def signWeight : Nat := Nat.pow 2 (f.exponentBits + f.fractionBits)

/-- The weight of the lowest exponent bit: all fractions lie below. -/
def fractionWeight : Nat := Nat.pow 2 f.fractionBits

/-- The bits of infinity: the exponent is all ones, the fraction is zero. -/
def infinity : Nat := (Nat.pow 2 f.exponentBits - 1) * f.fractionWeight

/-- The bits of the quiet NaN with no payload. -/
def quietNaN : Nat := f.infinity + f.fractionWeight / 2

/-- The largest power of two below infinity. -/
def topExponent : Nat := Nat.pow 2 (f.exponentBits - 1) - 1

/-- The exponent of the last place of the smallest numbers. -/
def minExponent : Int := 1 - (f.topExponent : Int) - f.fractionBits

/-- Put a sign in front of the bits of a magnitude. -/
def withSign (negative : Bool) (magnitude : Nat) : Nat :=
  if negative then f.signWeight + magnitude else magnitude

/-- A number of the format, taken apart. -/
inductive Parts where
  | nan
  | infinite (negative : Bool)
  /-- The number `mantissa * 2 ^ exponent`. -/
  | finite (negative : Bool) (mantissa : Nat) (exponent : Int)
  deriving DecidableEq, Repr

/-- Take the bits of a number apart. -/
def parts (bits : Nat) : Parts :=
  let negative := bits / f.signWeight % 2 = 1
  let magnitude := bits % f.signWeight
  if magnitude > f.infinity then .nan
  else if magnitude = f.infinity then .infinite negative
  else
    let biased := magnitude / f.fractionWeight
    let fraction := magnitude % f.fractionWeight
    if biased = 0 then .finite negative fraction f.minExponent
    else .finite negative (f.fractionWeight + fraction) (f.minExponent + biased - 1)

/-- Are two numbers equal? NaN is equal to no number, itself included; the two zeros are equal. -/
def equal (a b : Nat) : Bool :=
  f.parts a ≠ .nan && (a = b || (a % f.signWeight = 0 && b % f.signWeight = 0))

end BinaryFormat

/-- The quotient of two numbers as a whole number, the nearest one, the even one of two. -/
def roundHalfEven (numerator denominator : Nat) : Nat :=
  let quotient := numerator / denominator
  let twice := 2 * (numerator % denominator)
  if twice < denominator then quotient
  else if twice > denominator then quotient + 1
  else quotient + quotient % 2

/-- A fraction times a power of two, as a fraction. -/
def scaleByTwo (numerator denominator : Nat) (exponent : Int) : Nat × Nat :=
  (numerator * Nat.pow 2 exponent.toNat, denominator * Nat.pow 2 (-exponent).toNat)

/-- The exponent of the highest power of two that is at most the fraction. -/
def floorLog2 (numerator denominator : Nat) : Int :=
  let guess : Int := numerator.log2 - denominator.log2
  let (n, d) := scaleByTwo numerator denominator (-guess)
  if n < d then guess - 1 else guess

/-- The bits of the number nearest to a positive fraction, a half going to the even neighbour;
what is too large is infinite. -/
def BinaryFormat.round (f : BinaryFormat) (numerator denominator : Nat) : Nat :=
  let exponent := max f.minExponent (floorLog2 numerator denominator - f.fractionBits)
  let (n, d) := scaleByTwo numerator denominator (-exponent)
  let mantissa := roundHalfEven n d
  min f.infinity ((exponent - f.minExponent).toNat * f.fractionWeight + mantissa)

end Graft.Number
