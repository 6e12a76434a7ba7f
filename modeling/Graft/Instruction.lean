import Graft.Signature

/-!
# Instructions

The instructions of a stack machine. There are no short forms, so the form of an instruction never
depends on where it stands. How an instruction refers to others is a parameter `L`: a position in a
file or in a fragment, a handle in a body, or nothing at all where branches are not allowed.
-/

namespace Graft

/-- Binary arithmetic and bitwise operators. -/
inductive ArithOp where
  | add | sub | mul | div | rem | and | or | xor | shl | shr
  deriving DecidableEq, Repr

/-- Comparisons that push zero or one. -/
inductive CompareOp where
  | eq | gt | lt
  deriving DecidableEq, Repr

/-- What a numeric conversion makes. -/
inductive ConvTarget where
  | i4 | i8 | r4 | r8
  deriving DecidableEq, Repr

/-- Comparisons that decide a branch. -/
inductive Comparison where
  | eq | ne | lt | ge | gt | le
  deriving DecidableEq, Repr

/-- What an instruction does with an argument or a local. -/
inductive SlotAccess where
  | load | loadAddress | store
  deriving DecidableEq, Repr

/-- What an instruction does with a field. -/
inductive FieldAccess where
  | load | loadAddress | store | loadStatic | storeStatic
  deriving DecidableEq, Repr

/-- How a method is called. -/
inductive CallForm where
  | direct | virtual | construct
  deriving DecidableEq, Repr

/-- Operators that take a type. -/
inductive TypeOp where
  | newArray | loadElement | storeElement | box | unbox | cast | isInstance | initObject
  deriving DecidableEq, Repr

/-- An instruction that refers to other instructions by `L`. -/
inductive Instruction (L : Type) where
  | nop
  | ldnull
  | ldcI4 (value : Int32)
  | ldcI8 (value : Int64)
  /-- A number of 32 bits, as its bits. -/
  | ldcR4 (bits : UInt32)
  /-- A number of 64 bits, as its bits. -/
  | ldcR8 (bits : UInt64)
  | ldstr (text : String)
  | arg (access : SlotAccess) (index : UInt16)
  | loc (access : SlotAccess) (index : UInt16)
  | dup
  | pop
  | arith (op : ArithOp)
  | neg
  | not
  | compare (op : CompareOp)
  | conv (target : ConvTarget)
  | field (access : FieldAccess) (id : FieldId)
  | call (form : CallForm) (id : MethodId)
  | typed (op : TypeOp) (type : TypeSig)
  | ldlen
  | br (target : L)
  /-- Jump if the value on the stack is true, or false. -/
  | brIf (condition : Bool) (target : L)
  | brCmp (comparison : Comparison) (target : L)
  | switch (targets : List L)
  /-- Leave a protected region; the stack is emptied. -/
  | leave (target : L)
  | ret
  | throw
  | rethrow
  | endfinally
  deriving DecidableEq, Repr

instance {L : Type} : Inhabited (Instruction L) := ⟨.nop⟩

/-! ## All forms of an operand, in order -/

def ArithOp.all : List ArithOp := [.add, .sub, .mul, .div, .rem, .and, .or, .xor, .shl, .shr]

def CompareOp.all : List CompareOp := [.eq, .gt, .lt]

def ConvTarget.all : List ConvTarget := [.i4, .i8, .r4, .r8]

def Comparison.all : List Comparison := [.eq, .ne, .lt, .ge, .gt, .le]

def SlotAccess.all : List SlotAccess := [.load, .loadAddress, .store]

def FieldAccess.all : List FieldAccess :=
  [.load, .loadAddress, .store, .loadStatic, .storeStatic]

def CallForm.all : List CallForm := [.direct, .virtual, .construct]

def TypeOp.all : List TypeOp :=
  [.newArray, .loadElement, .storeElement, .box, .unbox, .cast, .isInstance, .initObject]

/-! ## Mnemonics -/

def ArithOp.mnemonic : ArithOp → String
  | .add => "add"
  | .sub => "sub"
  | .mul => "mul"
  | .div => "div"
  | .rem => "rem"
  | .and => "and"
  | .or => "or"
  | .xor => "xor"
  | .shl => "shl"
  | .shr => "shr"

def CompareOp.mnemonic : CompareOp → String
  | .eq => "ceq"
  | .gt => "cgt"
  | .lt => "clt"

def ConvTarget.mnemonic : ConvTarget → String
  | .i4 => "conv.i4"
  | .i8 => "conv.i8"
  | .r4 => "conv.r4"
  | .r8 => "conv.r8"

def Comparison.mnemonic : Comparison → String
  | .eq => "beq"
  | .ne => "bne.un"
  | .lt => "blt"
  | .ge => "bge"
  | .gt => "bgt"
  | .le => "ble"

def SlotAccess.argMnemonic : SlotAccess → String
  | .load => "ldarg"
  | .loadAddress => "ldarga"
  | .store => "starg"

def SlotAccess.locMnemonic : SlotAccess → String
  | .load => "ldloc"
  | .loadAddress => "ldloca"
  | .store => "stloc"

def FieldAccess.mnemonic : FieldAccess → String
  | .load => "ldfld"
  | .loadAddress => "ldflda"
  | .store => "stfld"
  | .loadStatic => "ldsfld"
  | .storeStatic => "stsfld"

def CallForm.mnemonic : CallForm → String
  | .direct => "call"
  | .virtual => "callvirt"
  | .construct => "newobj"

def TypeOp.mnemonic : TypeOp → String
  | .newArray => "newarr"
  | .loadElement => "ldelem"
  | .storeElement => "stelem"
  | .box => "box"
  | .unbox => "unbox.any"
  | .cast => "castclass"
  | .isInstance => "isinst"
  | .initObject => "initobj"

namespace Instruction

variable {L L' : Type}

/-- The name of an instruction in listings and plans. -/
def mnemonic : Instruction L → String
  | nop => "nop"
  | ldnull => "ldnull"
  | ldcI4 _ => "ldc.i4"
  | ldcI8 _ => "ldc.i8"
  | ldcR4 _ => "ldc.r4"
  | ldcR8 _ => "ldc.r8"
  | ldstr _ => "ldstr"
  | arg access _ => access.argMnemonic
  | loc access _ => access.locMnemonic
  | dup => "dup"
  | pop => "pop"
  | arith op => op.mnemonic
  | neg => "neg"
  | not => "not"
  | compare op => op.mnemonic
  | conv target => target.mnemonic
  | field access _ => access.mnemonic
  | call form _ => form.mnemonic
  | typed op _ => op.mnemonic
  | ldlen => "ldlen"
  | br _ => "br"
  | brIf true _ => "brtrue"
  | brIf false _ => "brfalse"
  | brCmp comparison _ => comparison.mnemonic
  | switch _ => "switch"
  | leave _ => "leave"
  | ret => "ret"
  | throw => "throw"
  | rethrow => "rethrow"
  | endfinally => "endfinally"

/-! ## Control flow -/

/-- The instructions that an instruction can jump to, in order; the next one does not count. -/
def targets : Instruction L → List L
  | br target => [target]
  | brIf _ target => [target]
  | brCmp _ target => [target]
  | switch targets => targets
  | leave target => [target]
  | _ => []

/-- Can control go on to the next instruction? -/
def fallsThrough : Instruction L → Bool
  | br _ => false
  | leave _ => false
  | ret => false
  | throw => false
  | rethrow => false
  | endfinally => false
  | _ => true

/-- Does the instruction name places to jump to? -/
def isBranch : Instruction L → Bool
  | br _ => true
  | brIf _ _ => true
  | brCmp _ _ => true
  | switch _ => true
  | leave _ => true
  | _ => false

/-- Is the stack empty after the instruction, whatever was on it? -/
def emptiesStack : Instruction L → Bool
  | leave _ => true
  | endfinally => true
  | _ => false

/-! ## Operands -/

/-- The local that is read or written. -/
def loc? : Instruction L → Option UInt16
  | loc _ index => some index
  | _ => none

/-- The argument that is read or written; the receiver, if there is one, is argument zero. -/
def arg? : Instruction L → Option UInt16
  | arg _ index => some index
  | _ => none

/-- The field that is accessed. -/
def field? : Instruction L → Option FieldId
  | field _ id => some id
  | _ => none

/-- The method that is called. -/
def method? : Instruction L → Option MethodId
  | call _ id => some id
  | _ => none

/-- The type operand. -/
def type? : Instruction L → Option TypeSig
  | typed _ type => some type
  | _ => none

/-! ## Labels -/

/-- Refer to other instructions by another kind of label. -/
def mapLabels (f : L → L') : Instruction L → Instruction L'
  | nop => nop
  | ldnull => ldnull
  | ldcI4 value => ldcI4 value
  | ldcI8 value => ldcI8 value
  | ldcR4 bits => ldcR4 bits
  | ldcR8 bits => ldcR8 bits
  | ldstr text => ldstr text
  | arg access index => arg access index
  | loc access index => loc access index
  | dup => dup
  | pop => pop
  | arith op => arith op
  | neg => neg
  | not => not
  | compare op => compare op
  | conv target => conv target
  | field access id => field access id
  | call form id => call form id
  | typed op type => typed op type
  | ldlen => ldlen
  | br target => br (f target)
  | brIf condition target => brIf condition (f target)
  | brCmp comparison target => brCmp comparison (f target)
  | switch targets => switch (targets.map f)
  | leave target => leave (f target)
  | ret => ret
  | throw => throw
  | rethrow => rethrow
  | endfinally => endfinally

/-- Refer to other instructions by another kind of label, or stop at the first label that has no
counterpart. -/
def mapLabelsM {ε : Type} (f : L → Except ε L') : Instruction L → Except ε (Instruction L')
  | nop => .ok nop
  | ldnull => .ok ldnull
  | ldcI4 value => .ok (ldcI4 value)
  | ldcI8 value => .ok (ldcI8 value)
  | ldcR4 bits => .ok (ldcR4 bits)
  | ldcR8 bits => .ok (ldcR8 bits)
  | ldstr text => .ok (ldstr text)
  | arg access index => .ok (arg access index)
  | loc access index => .ok (loc access index)
  | dup => .ok dup
  | pop => .ok pop
  | arith op => .ok (arith op)
  | neg => .ok neg
  | not => .ok not
  | compare op => .ok (compare op)
  | conv target => .ok (conv target)
  | field access id => .ok (field access id)
  | call form id => .ok (call form id)
  | typed op type => .ok (typed op type)
  | ldlen => .ok ldlen
  | br target => (f target).map br
  | brIf condition target => (f target).map (brIf condition)
  | brCmp comparison target => (f target).map (brCmp comparison)
  | switch targets => (targets.mapM f).map switch
  | leave target => (f target).map leave
  | ret => .ok ret
  | throw => .ok throw
  | rethrow => .ok rethrow
  | endfinally => .ok endfinally

/-! ## Small facts -/

@[simp] theorem mnemonic_mapLabels (f : L → L') (i : Instruction L) :
    (i.mapLabels f).mnemonic = i.mnemonic := by
  cases i with
  | brIf condition target => cases condition <;> rfl
  | _ => rfl

@[simp] theorem targets_mapLabels (f : L → L') (i : Instruction L) :
    (i.mapLabels f).targets = i.targets.map f := by
  cases i <;> rfl

@[simp] theorem fallsThrough_mapLabels (f : L → L') (i : Instruction L) :
    (i.mapLabels f).fallsThrough = i.fallsThrough := by
  cases i <;> rfl

@[simp] theorem mapLabels_id (i : Instruction L) : i.mapLabels id = i := by
  cases i <;> simp [mapLabels]

/-- Only a branch names places to jump to. -/
theorem targets_eq_nil_of_not_isBranch {i : Instruction L} (h : i.isBranch = false) :
    i.targets = [] := by
  cases i <;> simp_all [isBranch, targets]

end Instruction

end Graft
