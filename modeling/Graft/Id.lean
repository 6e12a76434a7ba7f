/-!
# Table indices and instruction handles

Types, methods and fields are entries of tables and are referred to by their index. Instructions
are referred to by a handle that stays with the instruction wherever it moves. All are numbers of
32 bits, each with a type of its own.
-/

namespace Graft

/-- Index into the type table. -/
structure TypeId where
  number : UInt32
  deriving DecidableEq, Hashable, Repr, Inhabited

/-- Index into the method table. -/
structure MethodId where
  number : UInt32
  deriving DecidableEq, Hashable, Repr, Inhabited

/-- Index into the field table. -/
structure FieldId where
  number : UInt32
  deriving DecidableEq, Hashable, Repr, Inhabited

/-- Handle of an instruction: the number of its slot in the arena. -/
structure InsnId where
  number : UInt32
  deriving DecidableEq, Hashable, Repr, Inhabited

namespace TypeId

/-- The entry of the type table that the index stands for. -/
def index (id : TypeId) : Nat := id.number.toNat

/-- The index of an entry. -/
def ofIndex (i : Nat) : TypeId := ⟨UInt32.ofNat i⟩

/-- The index as messages write it. -/
def text (id : TypeId) : String := "t" ++ toString id.index

end TypeId

namespace MethodId

/-- The entry of the method table that the index stands for. -/
def index (id : MethodId) : Nat := id.number.toNat

/-- The index of an entry. -/
def ofIndex (i : Nat) : MethodId := ⟨UInt32.ofNat i⟩

/-- The index as messages write it. -/
def text (id : MethodId) : String := "m" ++ toString id.index

end MethodId

namespace FieldId

/-- The entry of the field table that the index stands for. -/
def index (id : FieldId) : Nat := id.number.toNat

/-- The index of an entry. -/
def ofIndex (i : Nat) : FieldId := ⟨UInt32.ofNat i⟩

/-- The index as messages write it. -/
def text (id : FieldId) : String := "f" ++ toString id.index

end FieldId

namespace InsnId

/-- The slot that the handle stands for. -/
def index (id : InsnId) : Nat := id.number.toNat

/-- The handle of a slot. -/
def ofIndex (i : Nat) : InsnId := ⟨UInt32.ofNat i⟩

/-- The handle as messages and listings write it. -/
def text (id : InsnId) : String := "i" ++ toString id.index

end InsnId

end Graft
