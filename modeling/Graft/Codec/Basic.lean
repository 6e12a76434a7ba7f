import Graft.Fault

/-!
# Values as bytes

The building blocks of the module format. Numbers are little-endian; sequences and texts have their
length in front, as a number of 32 bits; an optional value has a tag in front. A decoder takes what
it needs from the front of the input and leaves the rest.
-/

namespace Graft

/-- Read a value from the front of the input; the rest is left over. -/
abbrev Decoder (α : Type) := StateT (List UInt8) (Except Fault) α

namespace Codec

/-! ## Bytes and numbers -/

/-- The `n` lowest bytes of a number, the lowest first. -/
def littleEndian : Nat → Nat → List UInt8
  | 0, _ => []
  | n + 1, value => UInt8.ofNat value :: littleEndian n (value / 256)

/-- The number that bytes spell, the lowest first. -/
def ofLittleEndian : List UInt8 → Nat
  | [] => 0
  | b :: rest => b.toNat + 256 * ofLittleEndian rest

/-- Take the next byte. -/
def byte : Decoder UInt8
  | [] => .error (.transfer .endOfInput)
  | b :: rest => .ok (b, rest)

/-- Take the next `n` bytes. -/
def take (n : Nat) : Decoder (List UInt8) := fun input =>
  let (front, rest) := input.splitAt n
  if front.length = n then .ok (front, rest) else .error (.transfer .endOfInput)

/-- Take a number of `n` bytes. -/
def number (n : Nat) : Decoder Nat := ofLittleEndian <$> take n

def encodeUInt16 (n : UInt16) : List UInt8 := littleEndian 2 n.toNat

def uint16 : Decoder UInt16 := UInt16.ofNat <$> number 2

def encodeUInt32 (n : UInt32) : List UInt8 := littleEndian 4 n.toNat

def uint32 : Decoder UInt32 := UInt32.ofNat <$> number 4

def encodeUInt64 (n : UInt64) : List UInt8 := littleEndian 8 n.toNat

def uint64 : Decoder UInt64 := UInt64.ofNat <$> number 8

def encodeTypeId (id : TypeId) : List UInt8 := encodeUInt32 id.number

def typeId : Decoder TypeId := TypeId.mk <$> uint32

def encodeMethodId (id : MethodId) : List UInt8 := encodeUInt32 id.number

def methodId : Decoder MethodId := MethodId.mk <$> uint32

def encodeFieldId (id : FieldId) : List UInt8 := encodeUInt32 id.number

def fieldId : Decoder FieldId := FieldId.mk <$> uint32

/-! ## Truth values, options, sequences, texts -/

def encodeBool (b : Bool) : List UInt8 := [if b then 1 else 0]

def bool : Decoder Bool := do
  let b ← byte
  if b = 0 then return false
  else if b = 1 then return true
  else throw (.malformed (.badBoolean b))

variable {α : Type}

def encodeOption (encode : α → List UInt8) : Option α → List UInt8
  | none => [0]
  | some a => 1 :: encode a

def option (item : Decoder α) : Decoder (Option α) := do
  let tag ← byte
  if tag = 0 then return none
  else if tag = 1 then return some (← item)
  else throw (.malformed (.badOptionTag tag))

/-- A length, of which the format keeps 32 bits. -/
def encodeLength (n : Nat) : List UInt8 := encodeUInt32 (UInt32.ofNat n)

def encodeList (encode : α → List UInt8) (items : List α) : List UInt8 :=
  encodeLength items.length ++ items.flatMap encode

/-- Read `n` items behind those in `before`, which are in reverse order. -/
def times (item : Decoder α) : Nat → List α → Decoder (List α)
  | 0, before => fun input => .ok (before.reverse, input)
  | n + 1, before => fun input =>
    match item input with
    | .error fault => .error fault
    | .ok (a, rest) => times item n (a :: before) rest

def list (item : Decoder α) : Decoder (List α) := do
  let length ← uint32
  times item length.toNat []

def encodeArray (encode : α → List UInt8) (items : Array α) : List UInt8 :=
  encodeList encode items.toList

def array (item : Decoder α) : Decoder (Array α) := List.toArray <$> list item

def encodeString (s : String) : List UInt8 :=
  let bytes := Text.Utf8.encodeString s
  encodeLength bytes.length ++ bytes

/-- A text that ends before its length says so is truncated, which is not the same as an input that
ends inside a number. -/
def string : Decoder String := do
  let length ← uint32
  let input ← get
  let (bytes, rest) := input.splitAt length.toNat
  if bytes.length ≠ length.toNat then throw (.malformed .truncatedString)
  set rest
  match Text.Utf8.decodeString bytes with
  | .ok s => return s
  | .error flaw => throw (.malformed (.notUtf8 flaw))

end Codec

end Graft
