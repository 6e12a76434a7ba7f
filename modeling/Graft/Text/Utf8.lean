/-!
# UTF-8

Text as bytes. A character takes one to four bytes: a lead byte that tells how many follow, then
continuation bytes of six bits each. Reading accepts only the shortest form of a code point and no
surrogates, and says where the first flaw is and how many bytes it spoils.
-/

namespace Graft.Text.Utf8

/-- What is wrong with bytes that are no text. -/
inductive Flaw where
  /-- The `length` bytes at `index` cannot start any character. -/
  | invalid (length index : Nat)
  /-- The bytes end inside the character that starts at `index`. -/
  | incomplete (index : Nat)
  deriving DecidableEq, Repr

/-- The wording of a flaw. -/
def Flaw.message : Flaw → String
  | .invalid length index =>
    "invalid utf-8 sequence of " ++ toString length ++ " bytes from index " ++ toString index
  | .incomplete index => "incomplete utf-8 byte sequence from index " ++ toString index

/-- The bytes of one character. -/
def encodeChar (c : Char) : List UInt8 :=
  let n := c.toNat
  let tail (weight : Nat) : UInt8 := UInt8.ofNat (0x80 + n / weight % 0x40)
  if n < 0x80 then [UInt8.ofNat n]
  else if n < 0x800 then [UInt8.ofNat (0xc0 + n / 0x40), tail 1]
  else if n < 0x10000 then [UInt8.ofNat (0xe0 + n / 0x1000), tail 0x40, tail 1]
  else [UInt8.ofNat (0xf0 + n / 0x40000), tail 0x1000, tail 0x40, tail 1]

/-- The bytes of a text. -/
def encode (cs : List Char) : List UInt8 := cs.flatMap encodeChar

/-- Does the byte carry six more bits of a character? -/
def isTail (b : UInt8) : Bool := 0x80 ≤ b && b ≤ 0xbf

/-- May `b` be the second byte after the lead `a` of three? Rules out forms that are too long and
the surrogates. -/
def isSecondOfThree (a b : UInt8) : Bool :=
  isTail b && (a != 0xe0 || 0xa0 ≤ b) && (a != 0xed || b ≤ 0x9f)

/-- May `b` be the second byte after the lead `a` of four? Rules out forms that are too long and
numbers past the last code point. -/
def isSecondOfFour (a b : UInt8) : Bool :=
  isTail b && (a != 0xf0 || 0x90 ≤ b) && (a != 0xf4 || b ≤ 0x8f)

/-- The six bits of a continuation byte. -/
def tailBits (b : UInt8) : Nat := b.toNat - 0x80

/-- Read characters from `index` on, behind those in `before`, which are in reverse order. -/
def decodeFrom (index : Nat) (before : List Char) : List UInt8 → Except Flaw (List Char)
  | [] => .ok before.reverse
  | a :: rest =>
    if a < 0x80 then decodeFrom (index + 1) (Char.ofNat a.toNat :: before) rest
    else if 0xc2 ≤ a && a ≤ 0xdf then
      match rest with
      | [] => .error (.incomplete index)
      | b :: rest =>
        if isTail b then
          let c := Char.ofNat ((a.toNat - 0xc0) * 0x40 + tailBits b)
          decodeFrom (index + 2) (c :: before) rest
        else .error (.invalid 1 index)
    else if 0xe0 ≤ a && a ≤ 0xef then
      match rest with
      | [] => .error (.incomplete index)
      | b :: rest =>
        if ! isSecondOfThree a b then .error (.invalid 1 index) else
        match rest with
        | [] => .error (.incomplete index)
        | b' :: rest =>
          if isTail b' then
            let c := Char.ofNat ((a.toNat - 0xe0) * 0x1000 + tailBits b * 0x40 + tailBits b')
            decodeFrom (index + 3) (c :: before) rest
          else .error (.invalid 2 index)
    else if 0xf0 ≤ a && a ≤ 0xf4 then
      match rest with
      | [] => .error (.incomplete index)
      | b :: rest =>
        if ! isSecondOfFour a b then .error (.invalid 1 index) else
        match rest with
        | [] => .error (.incomplete index)
        | b' :: rest =>
          if ! isTail b' then .error (.invalid 2 index) else
          match rest with
          | [] => .error (.incomplete index)
          | b'' :: rest =>
            if isTail b'' then
              let c := Char.ofNat
                ((a.toNat - 0xf0) * 0x40000 + tailBits b * 0x1000 + tailBits b' * 0x40
                  + tailBits b'')
              decodeFrom (index + 4) (c :: before) rest
            else .error (.invalid 3 index)
    else .error (.invalid 1 index)

/-- The text that bytes spell, or the first flaw in them. -/
def decode (bytes : List UInt8) : Except Flaw (List Char) := decodeFrom 0 [] bytes

/-- The bytes of a string. -/
def encodeString (s : String) : List UInt8 := encode s.toList

/-- The string that bytes spell, or the first flaw in them. -/
def decodeString (bytes : List UInt8) : Except Flaw String := (decode bytes).map String.ofList

end Graft.Text.Utf8
