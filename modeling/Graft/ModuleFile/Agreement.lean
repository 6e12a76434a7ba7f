import Graft.ModuleFile
import Graft.Number.BinaryFormat

/-!
# Agreement of files

Two files agree if they hold the same records and their floating-point constants are equal as
numbers. So a file with a NaN in it does not agree with itself, although it is equal to itself.
-/

namespace Graft

/-- Do two instructions agree? -/
def Instruction.agrees {L : Type} [DecidableEq L] : Instruction L → Instruction L → Bool
  | ldcR4 a, ldcR4 b => Number.BinaryFormat.single.equal a.toNat b.toNat
  | ldcR8 a, ldcR8 b => Number.BinaryFormat.double.equal a.toNat b.toNat
  | i, j => i = j

/-- Do two bodies agree? -/
def FileBody.agrees (a b : FileBody) : Bool :=
  a.code.isEqv b.code Instruction.agrees &&
    ({ a with code := [] } : FileBody) = { b with code := [] }

/-- Do two methods agree? -/
def Method.agrees (a b : Method FileBody) : Bool :=
  ({ a with body := none } : Method FileBody) = { b with body := none } &&
    match a.body, b.body with
    | some x, some y => FileBody.agrees x y
    | none, none => true
    | _, _ => false

/-- Do two files agree? -/
def ModuleFile.agrees (a b : ModuleFile) : Bool :=
  a.methods.isEqv b.methods Method.agrees &&
    ({ a with methods := #[] } : ModuleFile) = { b with methods := #[] }

end Graft
