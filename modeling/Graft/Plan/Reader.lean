import Graft.Number.Decimal
import Graft.Plan.Operation
import Graft.Text.Blank
import Graft.Text.Line

/-!
# Reading plans

A plan is a text of lines. Blank lines and lines that start with `#` say nothing; every other line
is an operation: a keyword and words, the last of which may run to the end of the line where it is a
literal or the text of a string.
-/

namespace Graft.Plan

/-! ## Words of a line -/

/-- Read something from the front of a line; the rest, trimmed in front, is left over. -/
abbrev Reader (α : Type) := StateT (List Char) (Except Flaw) α

namespace Reader

/-- The next word, which must be there. -/
def chars (what : String) : Reader (List Char) := fun line =>
  match Text.nextWord? line with
  | some found => .ok found
  | none => .error (.missing what)

/-- The next word as a string. -/
def word (what : String) : Reader String := String.ofList <$> chars what

/-- The largest position or count that can be written. -/
def maxNatural : Nat := UInt64.size - 1

/-- A position or a count. -/
def natural (what : String) : Reader Nat := do
  let cs ← chars what
  match Number.readNatural? maxNatural cs with
  | some n => return n
  | none => throw (.notNatural what (String.ofList cs))

variable {α : Type}

/-- An operand that `read?` reads from a word. -/
def operand (what : String) (read? : List Char → Option α) : Reader α := do
  let cs ← chars what
  match read? cs with
  | some a => return a
  | none => throw (.badOperand what (String.ofList cs))

/-- Everything that is left. -/
def remainder : Reader (List Char) := fun line => .ok (line, [])

/-- A type and a method. -/
def method (type name : String) : Reader MethodRef := do
  return { type := ← word type, name := ← word name }

/-- Read a whole text, trimmed; nothing may be left over. -/
def run (r : Reader α) (text : List Char) : Except Flaw α := do
  let (a, rest) ← r (Text.trim text)
  if rest ≠ [] then throw (.trailing (String.ofList rest))
  return a

end Reader

/-! ## Literals -/

/-- Read the payload of a literal of some kind. -/
def readPayload (kind : String) (payload : List Char) : Except Flaw (Literal String) :=
  let orBad (value? : Option (Literal String)) : Except Flaw (Literal String) :=
    match value? with
    | some value => .ok value
    | none => .error (.badLiteral kind (String.ofList payload))
  match kind with
  | "str" => .ok (.str (String.ofList payload))
  | "int" => orBad ((Number.readInt32? payload).map .int)
  | "bool" => orBad (match String.ofList payload with
    | "true" => some (.bool true)
    | "false" => some (.bool false)
    | _ => none)
  | "float" => orBad ((Number.readSingle? payload).map .float)
  | "double" => orBad ((Number.readDouble? payload).map .double)
  | "new" => orBad (
    if payload ≠ [] ∧ ! payload.any Text.isBlank then some (.fresh (String.ofList payload))
    else none)
  | _ => .error (.unknownKind kind)

/-- Read a literal: its kind, a colon, and its payload. -/
def readLiteral (text : List Char) : Except Flaw (Literal String) :=
  match text.dropWhile (· ≠ ':') with
  | [] => .error (.noKind (String.ofList text))
  | _ :: payload => readPayload (String.ofList (text.takeWhile (· ≠ ':'))) payload

/-- Is the value a text? Only texts have blanks in them. -/
def isText : Literal String → Bool
  | .str _ => true
  | _ => false

/-- The literal at the end of a line. -/
def Reader.literal : Reader (Literal String) := do
  let text ← remainder
  if text = [] then throw (.missing "literal")
  let value ← readLiteral text
  if ! isText value && text.any Text.isBlank then
    throw (.blankInLiteral (String.ofList text))
  return value

/-! ## Instructions -/

/-- The instructions that are written as a mnemonic only. -/
def bareInstructions : List (Instruction InsnId) :=
  [.nop, .ldnull, .dup, .pop, .neg, .not, .ldlen, .ret, .throw]
    ++ ArithOp.all.map .arith ++ CompareOp.all.map .compare ++ ConvTarget.all.map .conv

/-- The text of a string instruction: all that is left of the line, and not nothing. -/
def Reader.stringText : Reader String := do
  let text ← remainder
  if text = [] then throw (.missing "string")
  return String.ofList text

/-- A field access. -/
def Reader.fieldOf (access : FieldAccess) : Reader PlanInstruction := do
  return .field access (← word "field type") (← word "field")

/-- An argument and what is done with it. -/
def Reader.argument (access : SlotAccess) : Reader PlanInstruction := do
  return .plain (.arg access (← operand "argument index" Number.readUInt16?))

/-- A local and what is done with it. -/
def Reader.localSlot (access : SlotAccess) : Reader PlanInstruction := do
  return .plain (.loc access (← operand "local index" Number.readUInt16?))

/-- A call and its callee. -/
def Reader.callOf (isVirtual : Bool) : Reader PlanInstruction := do
  return .call isVirtual (← method "callee type" "callee")

/-- The operands of the instruction with the mnemonic. -/
def Reader.operands (mnemonic : String) : Reader PlanInstruction :=
  match mnemonic with
  | "ldstr" => do return .plain (.ldstr (← stringText))
  | "ldc.i4" => do return .plain (.ldcI4 (← operand "int32" Number.readInt32?))
  | "ldc.i8" => do return .plain (.ldcI8 (← operand "int64" Number.readInt64?))
  | "ldc.r4" => do return .plain (.ldcR4 (← operand "float32" Number.readSingle?))
  | "ldc.r8" => do return .plain (.ldcR8 (← operand "float64" Number.readDouble?))
  | "ldarg" => argument .load
  | "ldarga" => argument .loadAddress
  | "starg" => argument .store
  | "ldloc" => localSlot .load
  | "ldloca" => localSlot .loadAddress
  | "stloc" => localSlot .store
  | "call" => callOf false
  | "callvirt" => callOf true
  | "newobj" => do return .construct (← word "type")
  | "ldfld" => fieldOf .load
  | "ldflda" => fieldOf .loadAddress
  | "stfld" => fieldOf .store
  | "ldsfld" => fieldOf .loadStatic
  | "stsfld" => fieldOf .storeStatic
  | _ =>
    match bareInstructions.find? (·.mnemonic = mnemonic) with
    | some i => return .plain i
    | none => throw (.unknownInstruction mnemonic)

/-- An instruction: its mnemonic and its operands. -/
def Reader.instruction : Reader PlanInstruction := do
  operands (← word "instruction")

/-- Read an instruction from a text that holds nothing else. -/
def readInstruction (text : List Char) : Except Flaw PlanInstruction :=
  Reader.instruction.run text

/-! ## Operations -/

/-- The operation with the keyword. -/
def Reader.fields (keyword : String) : Reader Operation :=
  match keyword with
  | "set-return" => do
    let target ← method "type" "method"
    return .setReturn target (← literal)
  | "make-public" => do
    return .makePublic (← method "type" "method")
  | "inject-call" => do
    let target ← method "type" "method"
    return .injectCall target (← method "callee type" "callee")
  | "remove-range" => do
    let target ← method "type" "method"
    let first ← natural "start position"
    return .removeRange target first (← natural "end position")
  | "pad" => do
    let target ← method "type" "method"
    let position ← natural "position"
    return .pad target position (← natural "count")
  | "clone-method" => do
    let template ← method "type" "template method"
    return .cloneMethod template (← word "new method name")
  | "insert" => do
    let target ← method "type" "method"
    let position ← natural "position"
    return .insert target position (← instruction)
  | "replace" => do
    let target ← method "type" "method"
    let position ← natural "position"
    return .replace target position (← instruction)
  | "copy-range" => do
    let target ← method "type" "method"
    let source ← method "source type" "source method"
    let first ← natural "start position"
    let last ← natural "end position"
    return .copyRange target source first last (← natural "position")
  | _ => throw (.unknownOperation keyword)

/-- An operation: its keyword and its fields. -/
def Reader.operation : Reader Operation := do
  fields (← word "operation")

/-- Read an operation from a line. -/
def readOperation (line : List Char) : Except Flaw Operation := Reader.operation.run line

/-! ## Plans -/

/-- Does a line say nothing? -/
def isSilent (line : List Char) : Bool :=
  match Text.trim line with
  | [] => true
  | c :: _ => c = '#'

/-- Read the lines of a plan, the first of which has the number `line`. -/
def readLines (line : Nat) : List (List Char) → Except Fault (List Operation)
  | [] => .ok []
  | text :: rest =>
    if isSilent text then readLines (line + 1) rest
    else
      match readOperation text with
      | .error flaw => .error (.invalidPlan line flaw)
      | .ok operation => (readLines (line + 1) rest).map (operation :: ·)

/-- Read a plan; the first line that cannot be read is the fault. -/
def read (text : String) : Except Fault (List Operation) := readLines 1 (Text.lines text.toList)

end Graft.Plan
