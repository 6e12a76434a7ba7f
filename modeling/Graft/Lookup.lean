import Graft.Fault
import Graft.Tables

/-!
# Looking up names

Types are found by their qualified names, members by their type and their own name; case counts.
Each look-up that must succeed reports a missing name as a fault that a batch can skip.
-/

namespace Graft.Tables

variable {β : Type} (t : Tables Members β)

/-- The type with the name that is nested in another. -/
def findNestedType (outer : TypeId) (name : String) : Option TypeId :=
  (t.nestedOf outer).find? fun n => (t.type? n).any (·.name = name)

/-- The type at the top with the qualified name. -/
def findTopType (name : String) : Option TypeId :=
  t.typeIds.find? fun id =>
    (t.type? id).any fun d => d.outer = none && qualify d.space d.name = name

/-- The type with the qualified name. -/
def findType (name : String) : Option TypeId :=
  let (top, nested) := splitNested name
  nested.foldl (fun found part => found.bind (t.findNestedType · part)) (t.findTopType top)

/-- All methods of a type with the name, in table order. -/
def findMethods (owner : TypeId) (name : String) : List MethodId :=
  (t.methodsOf owner).filter fun m => (t.method? m).any (·.name = name)

/-- The first method of a type with the name. -/
def findMethod (owner : TypeId) (name : String) : Option MethodId :=
  (t.findMethods owner name).head?

/-- The only method of a type with the name. -/
def findUniqueMethod (owner : TypeId) (name : String) : Except Fault MethodId :=
  match t.findMethods owner name with
  | [m] => .ok m
  | candidates => .error (.ambiguousOrMissing (t.typeName owner) name candidates.length)

/-- The field of a type with the name. -/
def findField (owner : TypeId) (name : String) : Option FieldId :=
  (t.fieldsOf owner).find? fun f => (t.field? f).any (·.name = name)

/-- The constructor of a type that takes nothing but the instance. -/
def findParameterlessConstructor (owner : TypeId) : Option MethodId :=
  (t.methodsOf owner).find? fun m =>
    (t.method? m).any fun d => d.isConstructor && d.signature.params.isEmpty

/-- The type with the qualified name, which must be there. -/
def requireType (name : String) : Except Fault TypeId :=
  match t.findType name with
  | some id => .ok id
  | none => .error (.symbolNotFound name)

/-- The first method of a type with the name, which must be there. -/
def requireMethod (owner : TypeId) (name : String) : Except Fault MethodId :=
  match t.findMethod owner name with
  | some id => .ok id
  | none => .error (.symbolNotFound (memberName (t.typeName owner) name))

/-- The field of a type with the name, which must be there. -/
def requireField (owner : TypeId) (name : String) : Except Fault FieldId :=
  match t.findField owner name with
  | some id => .ok id
  | none => .error (.symbolNotFound (memberName (t.typeName owner) name))

/-- The constructor of a type that takes nothing but the instance, which must be there. -/
def requireConstructor (owner : TypeId) : Except Fault MethodId :=
  match t.findParameterlessConstructor owner with
  | some id => .ok id
  | none => .error (.noParameterlessConstructor (t.typeName owner))

end Graft.Tables
