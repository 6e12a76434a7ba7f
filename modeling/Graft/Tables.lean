import Graft.ExceptionRange
import Graft.Flags
import Graft.Instruction
import Graft.Name

/-!
# Tables

The types, fields and methods of a module, in flat tables that refer to one another by index. Two
things differ between a file and a module being edited, and so are parameters. Fields, methods and
nested types name the type that they belong to; a module being edited also lists them with that
type. And a body in a file holds its locals and instructions differently from a body being edited.
-/

namespace Graft

/-- What a type contains, each kind of entry in the order of declaration. -/
structure Members where
  /-- Overloads share a name. -/
  methods : List MethodId
  fields : List FieldId
  nested : List TypeId
  deriving DecidableEq, Repr, Inhabited

namespace Members

/-- A type with nothing in it. -/
def none : Members := ⟨[], [], []⟩

/-- One more method. -/
def withMethod (id : MethodId) (c : Members) : Members := { c with methods := c.methods ++ [id] }

/-- One more field. -/
def withField (id : FieldId) (c : Members) : Members := { c with fields := c.fields ++ [id] }

/-- One more nested type. -/
def withNested (id : TypeId) (c : Members) : Members := { c with nested := c.nested ++ [id] }

end Members

/-- A type of the module, or one that the module uses, with what is listed of it as a `μ`. -/
structure TypeDef (μ : Type) where
  /-- Empty for a nested type. -/
  space : String
  name : String
  flags : TypeFlags
  /-- The type that this one is nested in; it stands earlier in the table. -/
  outer : Option TypeId
  members : μ
  deriving DecidableEq, Repr, Inhabited

/-- A type as it stands in a file, which lists no members. -/
abbrev TypeRecord := TypeDef Unit

namespace TypeDef

variable {μ : Type}

/-- Are the members defined in another module, so that methods have no bodies? -/
def isExternal (t : TypeDef μ) : Bool := t.flags.has TypeFlags.external

/-- Are values of the type held in place? -/
def isValueType (t : TypeDef μ) : Bool := t.flags.has TypeFlags.valueType

/-- The type without its members. -/
def record (t : TypeDef μ) : TypeRecord := { t with members := () }

end TypeDef

/-- A field. -/
structure FieldDef where
  owner : TypeId
  name : String
  flags : FieldFlags
  type : TypeSig
  deriving DecidableEq, Repr, Inhabited

/-- Does the field belong to the type rather than to its instances? -/
def FieldDef.isStatic (f : FieldDef) : Bool := f.flags.has FieldFlags.static

/-- A method body: locals held as `V`, and instructions as `C`, referring to one another by `L`. -/
structure Body (V C L : Type) where
  maxStack : UInt16
  /-- Do the locals start as zero? -/
  initLocals : Bool
  locals : List V
  code : List C
  /-- The exception ranges, the innermost first. -/
  ranges : List (ExceptionRange L)
  deriving DecidableEq, Repr

/-- The body with nothing in it. -/
def Body.empty {V C L : Type} : Body V C L := ⟨0, false, [], [], []⟩

instance {V C L : Type} : Inhabited (Body V C L) := ⟨Body.empty⟩

/-- A method whose body is a `β`. -/
structure Method (β : Type) where
  owner : TypeId
  name : String
  flags : MethodFlags
  signature : MethodSig
  /-- Abstract methods and methods of external types have none. -/
  body : Option β
  deriving DecidableEq, Repr, Inhabited

/-- The name that all constructors of instances share. -/
def constructorName : String := ".ctor"

namespace Method

variable {β : Type}

/-- Does the method belong to the type rather than to its instances? -/
def isStatic (m : Method β) : Bool := m.flags.has MethodFlags.static

/-- Does the method construct an instance? -/
def isConstructor (m : Method β) : Bool := m.name = constructorName && ! m.isStatic

/-- How many arguments the method takes, the receiver included. -/
def argumentCount (m : Method β) : Nat :=
  m.signature.params.length + if m.isStatic then 0 else 1

end Method

/-- The tables of a module. -/
structure Tables (μ β : Type) where
  name : String
  types : Array (TypeDef μ)
  fields : Array FieldDef
  methods : Array (Method β)
  deriving DecidableEq, Repr

namespace Tables

variable {μ β : Type} (t : Tables μ β)

/-! ## Entries -/

/-- The type with the index. -/
def type? (id : TypeId) : Option (TypeDef μ) := t.types[id.index]?

/-- The field with the index. -/
def field? (id : FieldId) : Option FieldDef := t.fields[id.index]?

/-- The method with the index. -/
def method? (id : MethodId) : Option (Method β) := t.methods[id.index]?

/-- The indices of the type table. -/
def typeIds : List TypeId := (List.range t.types.size).map TypeId.ofIndex

/-- The indices of the field table. -/
def fieldIds : List FieldId := (List.range t.fields.size).map FieldId.ofIndex

/-- The indices of the method table. -/
def methodIds : List MethodId := (List.range t.methods.size).map MethodId.ofIndex

/-- The types without their members. -/
def records : Array TypeRecord := t.types.map TypeDef.record

/-! ## Qualified names -/

/-- The qualified name of a type: that of the type around it comes first. A type that claims to be
nested in a later one counts as a type at the top. -/
def typeName (id : TypeId) : String :=
  match t.type? id with
  | none => ""
  | some d =>
    match d.outer with
    | none => qualify d.space d.name
    | some outer =>
      if outer.index < id.index then nestedName (typeName outer) d.name
      else qualify d.space d.name
termination_by id.index

/-- The name of a method behind that of its type. -/
def methodName (id : MethodId) : String :=
  match t.method? id with
  | none => ""
  | some m => memberName (t.typeName m.owner) m.name

/-- The name of a field behind that of its type. -/
def fieldName (id : FieldId) : String :=
  match t.field? id with
  | none => ""
  | some f => memberName (t.typeName f.owner) f.name

/-- The text of a type, table entries called by their qualified names. -/
def renderType (s : TypeSig) : String := s.renderWith t.typeName

/-- The first type mentioned in a signature that no table entry stands for. -/
def missingType? (s : TypeSig) : Option TypeId :=
  s.mentioned?.filter fun id => t.types.size ≤ id.index

/-! ## What a type contains -/

section

variable (t : Tables Members β) (id : TypeId)

/-- What is listed with a type. -/
def membersOf : Members := (t.type? id).elim .none TypeDef.members

/-- The types nested in a type. -/
def nestedOf : List TypeId := (t.membersOf id).nested

/-- The fields of a type. -/
def fieldsOf : List FieldId := (t.membersOf id).fields

/-- The methods of a type. -/
def methodsOf : List MethodId := (t.membersOf id).methods

end

/-! ## New entries

An entry goes to the end of its table, and is listed with the type that it belongs to. -/

section

variable (t : Tables Members β)

/-- Tables with nothing in them. -/
def empty (name : String) : Tables Members β := ⟨name, #[], #[], #[]⟩

/-- Change what is listed with a type. -/
def enlist (owner : TypeId) (add : Members → Members) : Tables Members β :=
  { t with types := t.types.modify owner.index fun d => { d with members := add d.members } }

/-- List the next type with the one around it, if there is one. -/
def enlistNested : Option TypeId → Tables Members β
  | some outer => t.enlist outer (.withNested (.ofIndex t.types.size))
  | none => t

/-- Enter a type. It contains nothing yet. -/
def enterType (d : TypeRecord) : Tables Members β :=
  let t' := t.enlistNested d.outer
  { t' with types := t'.types.push { d with members := .none } }

/-- Enter a field. -/
def enterField (d : FieldDef) : Tables Members β :=
  { t.enlist d.owner (.withField (.ofIndex t.fields.size)) with fields := t.fields.push d }

/-- Enter a method. -/
def enterMethod (d : Method β) : Tables Members β :=
  { t.enlist d.owner (.withMethod (.ofIndex t.methods.size)) with methods := t.methods.push d }

/-- Enter types, then fields, then methods. -/
def enterAll (types : Array TypeRecord) (fields : Array FieldDef) (methods : Array (Method β)) :
    Tables Members β :=
  methods.foldl enterMethod (fields.foldl enterField (types.foldl enterType t))

end

end Tables

end Graft
