/-!
# Decimal integers

Reading a whole number from a word: an optional sign, then ASCII digits and nothing else, within
given bounds.
-/

namespace Graft.Number

/-- Is the character an ASCII digit? -/
def isDigit (c : Char) : Bool := '0' ≤ c && c ≤ '9'

/-- The value of an ASCII digit. -/
def digitValue (c : Char) : Nat := c.toNat - '0'.toNat

/-- The number that digits spell, the highest first. -/
def ofDigits (cs : List Char) : Nat := cs.foldl (fun n c => 10 * n + digitValue c) 0

/-- Read one or more digits and nothing else. -/
def readDigits? (cs : List Char) : Option Nat :=
  if cs ≠ [] ∧ cs.all isDigit then some (ofDigits cs) else none

/-- Read a number from zero to `limit`; a plus may stand in front. -/
def readNatural? (limit : Nat) (cs : List Char) : Option Nat :=
  let digits := match cs with
    | '+' :: rest => rest
    | cs => cs
  (readDigits? digits).filter (· ≤ limit)

/-- Read a number from `low` to `high`; a plus or a minus may stand in front. -/
def readSigned? (low high : Int) (cs : List Char) : Option Int :=
  let value? : Option Int := match cs with
    | '-' :: rest => (readDigits? rest).map fun n => - (n : Int)
    | '+' :: rest => (readDigits? rest).map Int.ofNat
    | cs => (readDigits? cs).map Int.ofNat
  value?.filter fun i => low ≤ i ∧ i ≤ high

/-- Read a signed number of 32 bits. -/
def readInt32? (cs : List Char) : Option Int32 :=
  (readSigned? Int32.minValue.toInt Int32.maxValue.toInt cs).map Int32.ofInt

/-- Read a signed number of 64 bits. -/
def readInt64? (cs : List Char) : Option Int64 :=
  (readSigned? Int64.minValue.toInt Int64.maxValue.toInt cs).map Int64.ofInt

/-- Read an unsigned number of 16 bits. -/
def readUInt16? (cs : List Char) : Option UInt16 :=
  (readNatural? (UInt16.size - 1) cs).map UInt16.ofNat

end Graft.Number
