import Graft.Number.BinaryFormat

/-!
# The shortest decimal that reads back

Every decimal in an interval around a floating-point number rounds to that number; the ends belong
to it if the mantissa is even. Of these decimals the shortest is shown: a multiple of the highest
power of ten that has one in the interval, the nearest of them, the greater of two. It is written
out without an exponent.
-/

namespace Graft.Number

/-- The decimals that round to one number, in units of `2 ^ exponent`: the number itself and the
ends of the interval. -/
structure Neighbourhood where
  low : Nat
  value : Nat
  high : Nat
  exponent : Int
  closed : Bool
  deriving Repr

/-- The neighbourhood of a positive number of the format. Below a power of two numbers lie twice as
dense, except at the smallest exponent. -/
def BinaryFormat.neighbourhood (f : BinaryFormat) (mantissa : Nat) (exponent : Int) :
    Neighbourhood :=
  let below := if mantissa = f.fractionWeight ∧ exponent > f.minExponent then 1 else 2
  { low := 4 * mantissa - below, value := 4 * mantissa, high := 4 * mantissa + 2
    exponent := exponent - 2, closed := mantissa % 2 = 0 }

namespace Neighbourhood

variable (x : Neighbourhood)

/-- `a * 10 ^ grid` and `b * 2 ^ exponent` compare as `a * s` and `b * t` do, where `(s, t)` are the
weights of the grid. -/
def weights (grid : Int) : Nat × Nat :=
  (Nat.pow 10 grid.toNat * Nat.pow 2 (-x.exponent).toNat,
    Nat.pow 10 (-grid).toNat * Nat.pow 2 x.exponent.toNat)

/-- The greatest multiple of `10 ^ grid` that is at most the value. -/
def floorOn (grid : Int) : Nat :=
  let (s, t) := x.weights grid
  x.value * t / s

/-- Does `n * 10 ^ grid` round to the number? -/
def contains (grid : Int) (n : Nat) : Bool :=
  let (s, t) := x.weights grid
  if x.closed then x.low * t ≤ n * s && n * s ≤ x.high * t
  else x.low * t < n * s && n * s < x.high * t

/-- Is the multiple above `n` at least as near to the value as `n`? -/
def aboveIsNearer (grid : Int) (n : Nat) : Bool :=
  let (s, t) := x.weights grid
  2 * (x.value * t) ≥ (2 * n + 1) * s

/-- The nearest multiple of `10 ^ grid` that rounds to the number, if there is one. -/
def onGrid? (grid : Int) : Option Nat :=
  let n := x.floorOn grid
  match x.contains grid n, x.contains grid (n + 1) with
  | true, true => some (if x.aboveIsNearer grid n then n + 1 else n)
  | true, false => some n
  | false, true => some (n + 1)
  | false, false => none

/-- Try the grids from `10 ^ grid` down, `steps` of them, and then take the last one, on which the
value itself lies. -/
def search (grid : Int) : Nat → Nat × Int
  | 0 => (x.floorOn grid, grid)
  | steps + 1 =>
    match x.onGrid? grid with
    | some n => (n, grid)
    | none => search (grid - 1) steps

/-- A power of ten above the whole neighbourhood. -/
def topGrid : Int :=
  let top : Int := x.high.log2 + 1 + x.exponent
  if 0 ≤ top then top / 3 + 1 else - ((-top) / 4)

/-- The shortest decimal `n * 10 ^ grid` in the neighbourhood. -/
def shortest : Nat × Int :=
  let last := min x.exponent 0
  x.search x.topGrid (x.topGrid - last).toNat

end Neighbourhood

/-- The number `n * 10 ^ grid` written out. -/
def positional (n : Nat) (grid : Int) : String :=
  let digits := Nat.toDigits 10 n
  if 0 ≤ grid then String.ofList (digits ++ List.replicate grid.toNat '0')
  else
    let places := (-grid).toNat
    let padded := List.replicate (places + 1 - digits.length) '0' ++ digits
    let split := padded.length - places
    String.ofList (padded.take split ++ '.' :: padded.drop split)

/-- The text of a number: the shortest decimal that reads back, without an exponent. -/
def BinaryFormat.render (f : BinaryFormat) (bits : Nat) : String :=
  match f.parts bits with
  | .nan => "NaN"
  | .infinite negative => if negative then "-inf" else "inf"
  | .finite negative mantissa exponent =>
    let magnitude :=
      if mantissa = 0 then "0"
      else
        let (n, grid) := (f.neighbourhood mantissa exponent).shortest
        positional n grid
    if negative then "-" ++ magnitude else magnitude

/-- The text of a number of 32 bits. -/
def renderSingle (bits : UInt32) : String := BinaryFormat.single.render bits.toNat

/-- The text of a number of 64 bits. -/
def renderDouble (bits : UInt64) : String := BinaryFormat.double.render bits.toNat

end Graft.Number
