import Graft.Number.BinaryFormat
import Graft.Number.Integer

/-!
# Decimal fractions

Reading a floating-point number from a word. A number is digits with at most one point among them
(before, inside or behind), then perhaps an exponent of ten; infinity and NaN have names, in any
case. The value is rounded to the format once, from the exact decimal.
-/

namespace Graft.Number

/-- The number `digits * 10 ^ exponent`. -/
structure Decimal where
  digits : Nat
  exponent : Int
  deriving DecidableEq, Repr

/-- Read an exponent: an optional sign and digits. -/
def readExponent? : List Char → Option Int
  | '-' :: rest => (readDigits? rest).map fun n => - (n : Int)
  | '+' :: rest => (readDigits? rest).map Int.ofNat
  | cs => (readDigits? cs).map Int.ofNat

/-- Read a decimal without its sign. -/
def readDecimal? (cs : List Char) : Option Decimal :=
  let whole := cs.takeWhile isDigit
  let rest := cs.dropWhile isDigit
  let (fraction, rest) := match rest with
    | '.' :: rest => (rest.takeWhile isDigit, rest.dropWhile isDigit)
    | rest => ([], rest)
  if whole = [] ∧ fraction = [] then none
  else
    let exponent? := match rest with
      | [] => some 0
      | 'e' :: rest => readExponent? rest
      | 'E' :: rest => readExponent? rest
      | _ => none
    exponent?.map fun exponent => ⟨ofDigits (whole ++ fraction), exponent - fraction.length⟩

/-- The bits of the number nearest to a decimal. A decimal beyond every power of two of the format
is infinite and one far below the smallest number is zero, whatever its digits are. -/
def BinaryFormat.ofDecimal (f : BinaryFormat) (x : Decimal) : Nat :=
  if x.digits = 0 then 0
  else
    let order : Int := (Nat.toDigits 10 x.digits).length + x.exponent
    if order > f.topExponent + 2 then f.infinity
    else if order < f.minExponent - 1 then 0
    else f.round (x.digits * Nat.pow 10 x.exponent.toNat) (Nat.pow 10 (-x.exponent).toNat)

/-- Read the name of a number that has no digits. -/
def BinaryFormat.readNamed? (f : BinaryFormat) (cs : List Char) : Option Nat :=
  let name := String.ofList (cs.map Char.toLower)
  if name = "inf" ∨ name = "infinity" then some f.infinity
  else if name = "nan" then some f.quietNaN
  else none

/-- Read a number with its sign; the answer is its bits. -/
def BinaryFormat.read? (f : BinaryFormat) (cs : List Char) : Option Nat :=
  let (negative, rest) := match cs with
    | '-' :: rest => (true, rest)
    | '+' :: rest => (false, rest)
    | cs => (false, cs)
  let magnitude? := ((readDecimal? rest).map f.ofDecimal).or (f.readNamed? rest)
  magnitude?.map (f.withSign negative)

/-- Read a number of 32 bits. -/
def readSingle? (cs : List Char) : Option UInt32 :=
  (BinaryFormat.single.read? cs).map UInt32.ofNat

/-- Read a number of 64 bits. -/
def readDouble? (cs : List Char) : Option UInt64 :=
  (BinaryFormat.double.read? cs).map UInt64.ofNat

end Graft.Number
