import Graft.Module
import Graft.ModuleFile

/-!
# Loading

From a file to a module being edited. A file is checked first, record by record in file order; the
first record with a flaw decides the fault. Building the module from a checked file cannot fail:
entry after entry is listed with the type that it belongs to, locals get numbers, and instructions
get handles in method order and body order, so position `p` of a body becomes handle `first + p`,
where `first` is the number of slots that were there before.
-/

namespace Graft

/-- The most locals that a body can have: their indices take 16 bits. -/
def maxLocals : Nat := 65536

namespace Tables

variable {μ β : Type} (t : Tables μ β)

/-! ## Checks that every kind of record shares -/

/-- The type must be in the table. -/
def checkTypeId (place : RecordPlace) (id : TypeId) : Except Fault Unit :=
  if id.index < t.types.size then .ok ()
  else .error (.malformed (.missingEntry place (.type id)))

/-- The type must mention only types of the table. -/
def checkTypeSig (place : RecordPlace) (s : TypeSig) : Except Fault Unit :=
  match s.mentioned? with
  | some id => t.checkTypeId place id
  | none => .ok ()

/-- A simple name is expected. -/
def requireName (name : String) : Except Fault Unit := (checkName name).mapError .invalidName

/-- A namespace is expected. -/
def requireNamespace (space : String) : Except Fault Unit :=
  (checkNamespace space).mapError .invalidName

/-! ## Types and fields -/

/-- The qualified names of all types, in table order. -/
def typeNames : Array String := Array.ofFn fun i : Fin t.types.size => t.typeName (.ofIndex i)

/-- Check a type: its names are valid, the type around it stands earlier, and no earlier type has
its qualified name. -/
def checkType (names : Array String) (i : Nat) (d : TypeRecord) : Except Fault Unit := do
  requireNamespace d.space
  requireName d.name
  match d.outer with
  | some outer => if i ≤ outer.index then throw (.malformed (.nestedInLater i outer))
  | none => pure ()
  let name := names.getD i ""
  if (names.extract 0 i).contains name then throw (.duplicateType name)

/-- Check a field: its type exists and so do the types it mentions, its name is valid, and no
earlier field of the type has it. -/
def checkField (i : Nat) (f : FieldDef) : Except Fault Unit := do
  t.checkTypeId (.field i) f.owner
  t.checkTypeSig (.field i) f.type
  requireName f.name
  if (t.fields.extract 0 i).any fun g => g.owner = f.owner && g.name = f.name then
    throw (.duplicateField (memberName (t.typeName f.owner) f.name))

end Tables

/-! ## Methods -/

namespace ModuleFile

variable (f : ModuleFile)

/-- The position must be one of the body. -/
def checkLabel (place : RecordPlace) (length : Nat) (position : UInt32) : Except Fault Unit :=
  if position.toNat < length then .ok ()
  else .error (.malformed (.positionPastEnd place position))

/-- Check an instruction of a body of the given length: all that it mentions exists. -/
def checkInstruction (place : RecordPlace) (length : Nat) (i : Instruction UInt32) :
    Except Fault Unit := do
  match i.field? with
  | some id =>
    if f.fields.size ≤ id.index then throw (.malformed (.missingEntry place (.field id)))
  | none => pure ()
  match i.method? with
  | some id =>
    if f.methods.size ≤ id.index then throw (.malformed (.missingEntry place (.method id)))
  | none => pure ()
  match i.type? with
  | some s => f.checkTypeSig place s
  | none => pure ()
  i.targets.forM (checkLabel place length)

/-- Check an exception range of a body of the given length: all that it mentions exists. -/
def checkRange (place : RecordPlace) (length : Nat) (r : ExceptionRange UInt32) :
    Except Fault Unit := do
  match r.caught? with
  | some s => f.checkTypeSig place s
  | none => pure ()
  discard (r.mapLabelsM (checkLabel place length))

/-- Check a body: its instructions, its exception ranges, then its locals, of which there may be
too many. -/
def checkBody (place : RecordPlace) (name : String) (b : FileBody) : Except Fault Unit := do
  let length := b.code.length
  b.code.forM (f.checkInstruction place length)
  b.ranges.forM (f.checkRange place length)
  (b.locals.take (maxLocals + 1)).forM (f.checkTypeSig place)
  if maxLocals < b.locals.length then throw (.localsOverflow name)

/-- Check a method: its type exists and so do the types of its signature, its name is valid, and so
is its body. -/
def checkMethod (i : Nat) (m : Method FileBody) : Except Fault Unit := do
  let place := RecordPlace.method i
  f.checkTypeId place m.owner
  f.checkTypeSig place m.signature.result
  m.signature.params.forM fun p => f.checkTypeSig place p.type
  Tables.requireName m.name
  match m.body with
  | some b => f.checkBody place (memberName (f.typeName m.owner) m.name) b
  | none => pure ()

/-- Check a file: types, then fields, then methods. -/
def check : Except Fault Unit := do
  let names := f.typeNames
  f.types.toList.zipIdx.forM fun (d, i) => Tables.checkType names i d
  f.fields.toList.zipIdx.forM fun (d, i) => f.checkField i d
  f.methods.toList.zipIdx.forM fun (d, i) => f.checkMethod i d

end ModuleFile

/-! ## Building -/

/-- Locals of the given types, numbered in order. -/
def LocalSlot.number (types : List TypeSig) : List LocalSlot :=
  types.zipIdx.map fun (type, i) => ⟨.ofNat i, type⟩

namespace FileBody

/-- The instructions of a body whose first handle is `first`. -/
def instructions (b : FileBody) (first : Nat) : List (Instruction InsnId) :=
  b.code.map (·.mapLabels fun p => .ofIndex (first + p.toNat))

/-- The body whose first handle is `first`. -/
def place (b : FileBody) (first : Nat) : LiveBody where
  maxStack := b.maxStack
  initLocals := b.initLocals
  locals := LocalSlot.number b.locals
  code := (List.range b.code.length).map fun p => .ofIndex (first + p)
  ranges := b.ranges.map (·.mapLabels fun p => .ofIndex (first + p.toNat))

end FileBody

namespace Method

/-- A method of a file with its body placed into the arena. -/
def place (m : Method FileBody) (k : MethodId) (arena : Arena) : Method LiveBody × Arena :=
  match m.body with
  | none => ({ m with body := none }, arena)
  | some b =>
    ({ m with body := some (FileBody.place b arena.size) },
      arena.append k (FileBody.instructions b arena.size))

end Method

namespace ModuleFile

/-- The methods of a file, one after another, with their bodies placed into the arena. -/
def placeMethods (methods : Array (Method FileBody)) : Array (Method LiveBody) × Arena :=
  methods.toList.zipIdx.foldl
    (fun (placed, arena) (m, i) =>
      let (m, arena) := m.place (.ofIndex i) arena
      (placed.push m, arena))
    (#[], Arena.empty)

/-- The module that a checked file stands for. -/
def build (f : ModuleFile) : Module :=
  let (methods, arena) := placeMethods f.methods
  { toTables := (Tables.empty f.name).enterAll f.types f.fields methods, arena, touched := [] }

/-- The module that a file stands for. -/
def load (f : ModuleFile) : Except Fault Module := do
  f.check
  return f.build

end ModuleFile

end Graft
