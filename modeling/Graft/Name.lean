import Graft.Text.Blank
import Graft.Text.Line

/-!
# Names

A simple name is a non-empty text without blanks and without the separator `/`. A namespace is
empty or simple names joined by dots. A type at the top is called by its namespace and its name,
joined by a dot; a nested type by the name of the type around it and its own name, joined by `/`.
-/

namespace Graft

/-- Stands between a type and a type nested in it. -/
def nestedSeparator : Char := '/'

/-- Why a text is no name. -/
inductive NameFlaw where
  | empty
  | separator (name : String)
  | blank (name : String)
  deriving DecidableEq, Repr

/-- The wording of a flaw. -/
def NameFlaw.message : NameFlaw → String
  | .empty => "Name is empty"
  | .separator name => "Name '" ++ name ++ "' contains an illegal character"
  | .blank name => "Name '" ++ name ++ "' contains whitespace"

/-- Is the text a simple name? -/
def checkName (name : String) : Except NameFlaw Unit :=
  if name.toList = [] then .error .empty
  else if name.toList.contains nestedSeparator then .error (.separator name)
  else if name.toList.any Text.isBlank then .error (.blank name)
  else .ok ()

/-- Is the text a namespace? -/
def checkNamespace (space : String) : Except NameFlaw Unit :=
  if space.toList = [] then .ok ()
  else (Text.pieces '.' space.toList).forM fun part => checkName (String.ofList part)

/-- The name of a type at the top. -/
def qualify (space name : String) : String :=
  if space.toList = [] then name else space ++ "." ++ name

/-- The name of a type nested in the type called `outer`. -/
def nestedName (outer name : String) : String := outer ++ nestedSeparator.toString ++ name

/-- The name of the type at the top, and the names of the types nested in it, one in another. -/
def splitNested (name : String) : String × List String :=
  match (Text.pieces nestedSeparator name.toList).map String.ofList with
  | [] => ("", [])
  | top :: nested => (top, nested)

/-- The name of a member, with the name of its type in front. -/
def memberName (type member : String) : String := type ++ "::" ++ member

end Graft
