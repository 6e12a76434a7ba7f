import Graft.Defect
import Graft.Name
import Graft.Plan.Flaw

/-!
# Faults

Why an operation on modules fails. A fault names its cause with the details that a caller needs:
methods by their qualified names, instructions by their handles, places by their positions.
-/

namespace Graft

/-- Why bytes cannot be read or written. -/
inductive TransferCause where
  | endOfInput
  | notFound
  | notText
  /-- What should be a folder is a file. -/
  | notAFolder
  /-- What should be a file is a folder. -/
  | isAFolder
  | alreadyThere
  | nameTooLong
  /-- A name holds a character that no name may hold. -/
  | badName
  /-- A folder in use as such cannot be replaced. -/
  | inUse
  | other (description : String)
  deriving DecidableEq, Repr

/-- Why an operation fails. -/
inductive Fault where
  | transfer (cause : TransferCause)
  /-- The bytes do not start as a module does. -/
  | badMagic (bytes : List UInt8)
  | unsupportedVersion (version : UInt16)
  | unknownOpcode (code : UInt16)
  | malformed (defect : Defect)
  /-- No type, method or field has the name. -/
  | symbolNotFound (name : String)
  /-- A name that should be of one method is of none, or of several. -/
  | ambiguousOrMissing (type method : String) (candidates : Nat)
  | duplicateType (name : String)
  | duplicateField (name : String)
  | invalidName (flaw : NameFlaw)
  /-- The method is abstract or external and has no body. -/
  | noBody (method : String)
  | positionOutOfRange (method : String) (position length : Nat)
  | localOutOfRange (method : String) (index : UInt16) (locals : Nat)
  | argumentOutOfRange (method : String) (index : UInt16) (arguments : Nat)
  | localsOverflow (method : String)
  /-- The handle is not in the body that it is used with. -/
  | notInBody (method : String) (instruction : InsnId)
  /-- The handle is in a body that does not own it, or twice in one body. -/
  | ownedElsewhere (method : String) (instruction : InsnId)
  /-- The branch at a position jumps to no instruction of its body. -/
  | danglingBranch (method : String) (branch : Nat) (target : InsnId)
  /-- An exception range has lost some of its markers, or has them in the wrong order. -/
  | danglingRange (method : String) (range : Nat)
  /-- A branch of a range to be copied jumps out of it. -/
  | externalBranch (method : String) (position : Nat)
  /-- An exception range reaches over the edge of a range to be copied. -/
  | partialRange (method : String) (range : Nat)
  | returnTypeMismatch (method expected found : String)
  | noParameterlessConstructor (type : String)
  | unsupportedCallee (method : String)
  | signatureMismatch (source target : String)
  | emptyBody (method : String)
  | stackUnderflow (method : String) (position : Nat)
  /-- The stack would hold more than 65535 values. -/
  | stackOverflow (method : String) (position : Nat)
  /-- Two ways to an instruction come with stacks of different depths. -/
  | stackMismatch (method : String) (position expected found : Nat)
  | maxStackExceeded (method : String) (declared required : Nat)
  | fallsOffEnd (method : String) (position : Nat)
  /-- A line of a plan, counted from one, cannot be read. -/
  | invalidPlan (line : Nat) (flaw : Plan.Flaw)
  deriving DecidableEq, Repr

namespace Fault

/-- A missing name is the only reason to skip a patch instead of giving up. -/
def isSoft : Fault → Bool
  | symbolNotFound _ => true
  | _ => false

/-- The word for the kind of a fault. -/
def kind : Fault → String
  | transfer _ => "IoError"
  | badMagic _ => "BadMagic"
  | unsupportedVersion _ => "UnsupportedVersion"
  | unknownOpcode _ => "UnknownOpcode"
  | malformed _ => "Malformed"
  | symbolNotFound _ => "SymbolNotFound"
  | ambiguousOrMissing _ _ _ => "AmbiguousOrMissing"
  | duplicateType _ => "DuplicateType"
  | duplicateField _ => "DuplicateField"
  | invalidName _ => "InvalidName"
  | noBody _ => "NoBody"
  | positionOutOfRange _ _ _ => "PositionOutOfRange"
  | localOutOfRange _ _ _ => "LocalIndexOutOfRange"
  | argumentOutOfRange _ _ _ => "ArgumentIndexOutOfRange"
  | localsOverflow _ => "LocalsOverflow"
  | notInBody _ _ => "InstructionNotInBody"
  | ownedElsewhere _ _ => "InstructionOwnedElsewhere"
  | danglingBranch _ _ _ => "DanglingBranchTarget"
  | danglingRange _ _ => "DanglingHandlerRange"
  | externalBranch _ _ => "UnresolvableExternalBranch"
  | partialRange _ _ => "PartialHandlerRange"
  | returnTypeMismatch _ _ _ => "ReturnTypeMismatch"
  | noParameterlessConstructor _ => "NoParameterlessConstructor"
  | unsupportedCallee _ => "UnsupportedCallee"
  | signatureMismatch _ _ => "SignatureMismatch"
  | emptyBody _ => "EmptyBody"
  | stackUnderflow _ _ => "StackUnderflow"
  | stackOverflow _ _ => "StackOverflow"
  | stackMismatch _ _ _ _ => "StackHeightMismatch"
  | maxStackExceeded _ _ _ => "MaxStackExceeded"
  | fallsOffEnd _ _ => "FallsOffEnd"
  | invalidPlan _ _ => "InvalidPlan"

/-- The details of a fault: one without a name, or several with their names. -/
inductive Details where
  | plain (value : String)
  | named (values : List (String × String))

/-- The details of a fault, texts in quotes. -/
def details : Fault → Details
  | transfer .endOfInput => .plain "UnexpectedEof"
  | transfer .notFound => .plain "NotFound"
  | transfer .notText => .plain "InvalidData"
  | transfer .notAFolder => .plain "NotADirectory"
  | transfer .isAFolder => .plain "IsADirectory"
  | transfer .alreadyThere => .plain "AlreadyExists"
  | transfer .nameTooLong => .plain "InvalidFilename"
  | transfer .badName => .plain "InvalidInput"
  | transfer .inUse => .plain "ResourceBusy"
  | transfer (.other description) => .plain description
  | badMagic bytes =>
    .plain ("[" ++ ", ".intercalate (bytes.map fun b => toString b.toNat) ++ "]")
  | unsupportedVersion version => .plain (toString version.toNat)
  | unknownOpcode code => .plain (toString code.toNat)
  | malformed defect => .plain (Text.quoted defect.message)
  | symbolNotFound name => .plain (Text.quoted name)
  | ambiguousOrMissing type method candidates => .named [
      ("type_name", Text.quoted type), ("method_name", Text.quoted method),
      ("candidates", toString candidates)]
  | duplicateType name => .plain (Text.quoted name)
  | duplicateField name => .plain (Text.quoted name)
  | invalidName flaw => .plain (Text.quoted flaw.message)
  | noBody method => .plain (Text.quoted method)
  | positionOutOfRange method position length => .named [
      ("method", Text.quoted method), ("position", toString position), ("len", toString length)]
  | localOutOfRange method index locals => .named [
      ("method", Text.quoted method), ("index", toString index.toNat),
      ("locals", toString locals)]
  | argumentOutOfRange method index arguments => .named [
      ("method", Text.quoted method), ("index", toString index.toNat),
      ("arguments", toString arguments)]
  | localsOverflow method => .plain (Text.quoted method)
  | notInBody method instruction => .named [
      ("method", Text.quoted method), ("instruction", instruction.text)]
  | ownedElsewhere method instruction => .named [
      ("method", Text.quoted method), ("instruction", instruction.text)]
  | danglingBranch method branch target => .named [
      ("method", Text.quoted method), ("branch", toString branch), ("target", target.text)]
  | danglingRange method range => .named [
      ("method", Text.quoted method), ("handler", toString range)]
  | externalBranch method position => .named [
      ("method", Text.quoted method), ("position", toString position)]
  | partialRange method range => .named [
      ("method", Text.quoted method), ("handler", toString range)]
  | returnTypeMismatch method expected found => .named [
      ("method", Text.quoted method), ("expected", Text.quoted expected),
      ("found", Text.quoted found)]
  | noParameterlessConstructor type => .plain (Text.quoted type)
  | unsupportedCallee method => .plain (Text.quoted method)
  | signatureMismatch source target => .named [
      ("source", Text.quoted source), ("target", Text.quoted target)]
  | emptyBody method => .plain (Text.quoted method)
  | stackUnderflow method position => .named [
      ("method", Text.quoted method), ("position", toString position)]
  | stackOverflow method position => .named [
      ("method", Text.quoted method), ("position", toString position)]
  | stackMismatch method position expected found => .named [
      ("method", Text.quoted method), ("position", toString position),
      ("expected", toString expected), ("found", toString found)]
  | maxStackExceeded method declared required => .named [
      ("method", Text.quoted method), ("declared", toString declared),
      ("required", toString required)]
  | fallsOffEnd method position => .named [
      ("method", Text.quoted method), ("position", toString position)]
  | invalidPlan line flaw => .named [
      ("line", toString line), ("message", Text.quoted flaw.message)]

/-- The text of a fault: its kind, then its details in brackets. -/
def message (fault : Fault) : String :=
  match fault.details with
  | .plain value => fault.kind ++ "(" ++ value ++ ")"
  | .named values =>
    fault.kind ++ " \x7b "
      ++ ", ".intercalate (values.map fun (name, value) => name ++ ": " ++ value)
      ++ " \x7d"

end Fault

end Graft
