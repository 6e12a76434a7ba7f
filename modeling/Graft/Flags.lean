/-!
# Flags

Attributes of types, methods and fields, each kind a word of bits. A file may only hold the bits
that have a meaning.
-/

namespace Graft

/-- Attributes of a type. -/
structure TypeFlags where
  bits : UInt32
  deriving DecidableEq, Repr, Inhabited

/-- Attributes of a method. -/
structure MethodFlags where
  bits : UInt16
  deriving DecidableEq, Repr, Inhabited

/-- Attributes of a field. -/
structure FieldFlags where
  bits : UInt16
  deriving DecidableEq, Repr, Inhabited

namespace TypeFlags

def visible : UInt32 := 0x0001
def nested : UInt32 := 0x0002
def interface : UInt32 := 0x0020
def abstract : UInt32 := 0x0080
def sealed : UInt32 := 0x0100
def valueType : UInt32 := 0x0200

/-- Defined in another module: members carry signatures but never bodies. -/
def external : UInt32 := 0x1000

/-- All bits with a meaning. -/
def all : UInt32 :=
  visible ||| nested ||| interface ||| abstract ||| sealed ||| valueType ||| external

/-- Does every bit have a meaning? -/
def known (f : TypeFlags) : Bool := f.bits &&& ~~~all = 0

/-- Is the bit set? -/
def has (f : TypeFlags) (bit : UInt32) : Bool := f.bits &&& bit = bit

/-- Set a bit. -/
def insert (f : TypeFlags) (bit : UInt32) : TypeFlags := ⟨f.bits ||| bit⟩

end TypeFlags

namespace MethodFlags

def visible : UInt16 := 0x0001
def hidden : UInt16 := 0x0002
def inherited : UInt16 := 0x0004
def static : UInt16 := 0x0010
def final : UInt16 := 0x0020
def overridable : UInt16 := 0x0040
def abstract : UInt16 := 0x0400
def specialName : UInt16 := 0x0800
def runtimeName : UInt16 := 0x1000

/-- All bits with a meaning. -/
def all : UInt16 :=
  visible ||| hidden ||| inherited ||| static ||| final ||| overridable ||| abstract |||
    specialName ||| runtimeName

/-- Does every bit have a meaning? -/
def known (f : MethodFlags) : Bool := f.bits &&& ~~~all = 0

/-- Is the bit set? -/
def has (f : MethodFlags) (bit : UInt16) : Bool := f.bits &&& bit = bit

/-- Whatever the access was, make it public. -/
def makePublic (f : MethodFlags) : MethodFlags :=
  ⟨f.bits &&& ~~~(hidden ||| inherited) ||| visible⟩

/-- The words a listing puts in front of a method, in this order. -/
def modifiers : List (UInt16 × String) := [
  (visible, "public"), (hidden, "private"), (inherited, "protected"), (static, "static"),
  (abstract, "abstract"), (overridable, "virtual"), (final, "final")]

end MethodFlags

namespace FieldFlags

def visible : UInt16 := 0x0001
def hidden : UInt16 := 0x0002
def inherited : UInt16 := 0x0004
def static : UInt16 := 0x0010
def initOnly : UInt16 := 0x0020
def literal : UInt16 := 0x0040

/-- All bits with a meaning. -/
def all : UInt16 := visible ||| hidden ||| inherited ||| static ||| initOnly ||| literal

/-- Does every bit have a meaning? -/
def known (f : FieldFlags) : Bool := f.bits &&& ~~~all = 0

/-- Is the bit set? -/
def has (f : FieldFlags) (bit : UInt16) : Bool := f.bits &&& bit = bit

end FieldFlags

end Graft
