import Graft.Module
import Graft.Number.Shortest
import Graft.Positions
import Graft.Text.Quoted

/-!
# Listings

The text of a method for people to read: its signature, then the declared stack depth, the locals,
the exception ranges and the instructions. Instructions are called by their position in the body.
-/

namespace Graft.Module

variable (m : Module)

/-- Texts joined with commas. -/
def commas (parts : List String) : String := ", ".intercalate parts

/-- A position as a label, with at least four digits. -/
def labelText (position : Nat) : String :=
  let digits := toString position
  "IL_" ++ String.ofList (List.replicate (4 - digits.length) '0') ++ digits

/-- A handle as a label; one that is not in the body is shown as it is. -/
def handleText (positions : Positions) (id : InsnId) : String :=
  match positions.find? id with
  | some p => labelText p
  | none => "IL_????(" ++ id.text ++ ")"

/-- The operand of an instruction; empty if it has none. -/
def operandText (label : InsnId → String) : Instruction InsnId → String
  | .ldcI4 value => toString value.toInt
  | .ldcI8 value => toString value.toInt
  | .ldcR4 bits => Number.renderSingle bits
  | .ldcR8 bits => Number.renderDouble bits
  | .ldstr text => Text.quoted text
  | .arg _ index => toString index.toNat
  | .loc _ index => toString index.toNat
  | .field _ id => m.fieldName id
  | .call _ id => m.methodName id
  | .typed _ type => m.renderType type
  | .br target => label target
  | .brIf _ target => label target
  | .brCmp _ target => label target
  | .leave target => label target
  | .switch targets => "(" ++ commas (targets.map label) ++ ")"
  | _ => ""

/-- The line of an instruction. -/
def instructionLine (label : InsnId → String) (position : Nat) (id : InsnId) : String :=
  let text := match m.instruction? id with
    | some i =>
      let operand := m.operandText label i
      if operand = "" then i.mnemonic else i.mnemonic ++ " " ++ operand
    | none => "<missing " ++ id.text ++ ">"
  "  " ++ labelText position ++ ": " ++ text ++ "\n"

/-- The line of an exception range. -/
def rangeLine (label : InsnId → String) (r : ExceptionRange InsnId) : String :=
  let kind := match r.kind with
    | .catching type => "catch " ++ m.renderType type
    | .filter start => "filter " ++ label start
    | .finallyDo => "finally"
    | .fault => "fault"
  "  .try " ++ label r.tryStart ++ " to " ++ label r.tryEnd ++ " " ++ kind ++ " handler "
    ++ label r.handlerStart ++ " to " ++ label r.handlerEnd ++ "\n"

/-- The line of the locals; none if there are no locals. -/
def localsLine (b : LiveBody) : String :=
  if b.locals.isEmpty then ""
  else
    let locals := b.locals.map fun l => m.renderType l.type ++ " V_" ++ toString l.index.toNat
    "  .locals " ++ (if b.initLocals then "init " else "") ++ "(" ++ commas locals ++ ")\n"

/-- The lines of a body. -/
def bodyText (b : LiveBody) : String :=
  let label := handleText (Positions.ofList b.code)
  "  .maxstack " ++ toString b.maxStack.toNat ++ "\n" ++ m.localsLine b
    ++ String.join (b.ranges.map (m.rangeLine label))
    ++ String.join (b.code.zipIdx.map fun (id, p) => m.instructionLine label p id)

/-- The line of the signature of a method. -/
def signatureLine (k : MethodId) (d : Method LiveBody) : String :=
  let modifiers := MethodFlags.modifiers.filterMap fun (bit, word) =>
    if d.flags.has bit then some (word ++ " ") else none
  let params := d.signature.params.map fun p => m.renderType p.type ++ " " ++ p.name
  let generics :=
    if d.signature.generics.isEmpty then "" else "<" ++ commas d.signature.generics ++ ">"
  String.join modifiers ++ m.renderType d.signature.result ++ " " ++ m.methodName k ++ generics
    ++ "(" ++ commas params ++ ")\n"

/-- The listing of a method. -/
def describe (k : MethodId) : String :=
  match m.method? k with
  | none => ""
  | some d =>
    m.signatureLine k d ++ match d.body with
      | some b => m.bodyText b
      | none => "  (no body)\n"

end Graft.Module
