import Graft.Edit.Basic
import Graft.Module.Load

/-!
# Declaring types, fields and methods

New entries go to the ends of the tables. Their names are checked; the types they mention are not.
-/

namespace Graft

namespace Module

variable (m : Module)

/-- A name that no type must have yet. -/
def checkNewType (qualified : String) : Except Fault Unit :=
  if m.typeIds.any fun id => m.typeName id = qualified then .error (.duplicateType qualified)
  else .ok ()

/-- A name that no type nested in `outer` must have yet. -/
def checkNewNestedType (outer : TypeId) (name : String) : Except Fault Unit :=
  match m.findNestedType outer name with
  | some _ => .error (.duplicateType (nestedName (m.typeName outer) name))
  | none => .ok ()

/-- A name that no field of the type must have yet. -/
def checkNewField (owner : TypeId) (name : String) : Except Fault Unit :=
  match m.findField owner name with
  | some _ => .error (.duplicateField (memberName (m.typeName owner) name))
  | none => .ok ()

/-- Are the members of the type defined elsewhere? -/
def isExternal (id : TypeId) : Bool := (m.type? id).any TypeDef.isExternal

end Module

namespace Edit

/-- Declare a type at the top. -/
def addType (space name : String) (flags : TypeFlags) : Edit TypeId := do
  check fun _ => Tables.requireNamespace space
  check fun _ => Tables.requireName name
  check (·.checkNewType (qualify space name))
  let id := TypeId.ofIndex (← get).types.size
  let d : TypeRecord := { space, name, flags, outer := none, members := () }
  update fun m => { m with toTables := m.enterType d }
  return id

/-- Declare a type nested in another. It is external if that one is. -/
def addNestedType (outer : TypeId) (name : String) (flags : TypeFlags) : Edit TypeId := do
  check fun _ => Tables.requireName name
  check (·.checkNewNestedType outer name)
  let id := TypeId.ofIndex (← get).types.size
  let flags := flags.insert TypeFlags.nested
  let flags := if (← get).isExternal outer then flags.insert TypeFlags.external else flags
  let d : TypeRecord := { space := "", name, flags, outer := some outer, members := () }
  update fun m => { m with toTables := m.enterType d }
  return id

/-- Declare a field. -/
def addField (owner : TypeId) (name : String) (flags : FieldFlags) (type : TypeSig) :
    Edit FieldId := do
  check fun _ => Tables.requireName name
  check (·.checkNewField owner name)
  let id := FieldId.ofIndex (← get).fields.size
  update fun m => { m with toTables := m.enterField { owner, name, flags, type } }
  return id

/-- Declare a method. It has an empty body to fill in, unless it is abstract or its type is
external. -/
def addMethod (owner : TypeId) (name : String) (flags : MethodFlags) (signature : MethodSig) :
    Edit MethodId := do
  check fun _ => Tables.requireName name
  let id := MethodId.ofIndex (← get).methods.size
  let hasBody := ! (← get).isExternal owner && ! flags.has MethodFlags.abstract
  let body := if hasBody then some Body.empty else none
  update fun m => { m with toTables := m.enterMethod { owner, name, flags, signature, body } }
  return id

end Edit

end Graft
