import Graft.Text.Line

/-!
# Routes

How a text names a file: the names of the folders on the way, with slashes between them, and then
its own. `.` stays in a folder and `..` goes back to the one it lies in. Where a route leads is
known only by walking it, since every folder on the way has to be there: a missing one does not
cancel against the `..` behind it. A route keeps its spelling, doubled slashes and all, because the
size of the text is limited too.
-/

namespace Graft

/-- The way to a file or folder, as it is spelled. -/
structure Route where
  /-- Does it start at the outermost folder rather than in the current one? -/
  isAbsolute : Bool
  /-- What stands between the slashes; nothing at all between two of them in a row. -/
  pieces : List String
  deriving DecidableEq, Repr

namespace Route

/-- The route that a text spells. -/
def ofString (s : String) : Route :=
  match s.toList with
  | '/' :: rest => ⟨true, (Text.pieces '/' rest).map String.ofList⟩
  | text => ⟨false, (Text.pieces '/' text).map String.ofList⟩

variable (r : Route)

/-- The text of a route. -/
def text : String := (if r.isAbsolute then "/" else "") ++ "/".intercalate r.pieces

/-- The names on the way. -/
def names : List String := r.pieces.filter (· ≠ "")

/-- Does a slash follow the last name? Then only a folder can be meant. -/
def endsInSlash : Bool := r.pieces.getLast? = some ""

/-- Is a piece passed without leaving the folder? -/
def isIdle (piece : String) : Bool := piece = "" || piece = "."

/-- The pieces up to the last one that leads on. -/
def trimEnd (pieces : List String) : List String := (pieces.reverse.dropWhile isIdle).reverse

/-- The pieces before the last one that leads on. -/
def before (pieces : List String) : List String := trimEnd (trimEnd pieces).dropLast

/-- The folder that a file to be made lies in: the text before its name, where a `.` at the start
stays and one further on is no name. -/
def folder : Route :=
  match r.isAbsolute, r.pieces with
  | false, "." :: rest => ⟨false, "." :: before rest⟩
  | false, pieces => ⟨false, if before pieces = [] then ["."] else before pieces⟩
  | true, pieces => ⟨true, before pieces⟩

/-! ## Limits -/

/-- How many bytes a name may take. -/
def maxNameSize : Nat := 255

/-- How many bytes the text of a route may take. -/
def maxSize : Nat := 4095

/-- How many bytes the text takes. -/
def size : Nat := r.text.utf8ByteSize

/-- Does the text hold a NUL, which no name may hold? -/
def hasNul : Bool := r.text.toList.contains '\x00'

end Route

end Graft
