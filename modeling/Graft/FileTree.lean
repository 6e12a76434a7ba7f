import Graft.Route
import Graft.World

/-!
# File trees

Folders and files in memory, as a world to run the program in. The program works in one of the
folders, its home, and routes that are not absolute start there. They are walked step by step, and
each step must end in a folder. A folder is there if it was made or if something lies in it.
-/

namespace Graft

/-- The names on the way from the outermost folder to a file or folder. -/
abbrev Place := List String

namespace Place

/-- The place that a name stands for in a folder, there or not. The outermost folder lies in
itself. -/
def step (folder : Place) (name : String) : Except TransferCause Place :=
  if name = "." then .ok folder
  else if name = ".." then .ok folder.dropLast
  else if Route.maxNameSize < name.utf8ByteSize then .error .nameTooLong
  else .ok (folder ++ [name])

/-- How many bytes the text of a place takes, each name behind a slash. -/
def size (p : Place) : Nat := p.foldr (fun name n => name.utf8ByteSize + 1 + n) 0

end Place

/-- Folders and files. -/
structure FileTree where
  /-- The folder that the program works in. -/
  home : Place
  files : List (Place × List UInt8)
  /-- Folders that were made. A folder is left out if one that is listed lies in it. -/
  folders : List Place
  deriving DecidableEq, Repr

namespace FileTree

/-- The folders that every system has. -/
def systemFolders : List Place := [["etc"], ["proc"], ["tmp"], ["usr"], ["var"]]

/-- A system whose only file is the null device, and an empty home. -/
def fresh (home : Place) : FileTree := ⟨home, [(["dev", "null"], [])], systemFolders⟩

variable (t : FileTree)

/-- The contents of a file. -/
def file? (p : Place) : Option (List UInt8) := t.files.lookup p

/-- Is there a file? -/
def isFile (p : Place) : Bool := (t.file? p).isSome

/-- Is there a folder? -/
def isFolder (p : Place) : Bool :=
  p.isPrefixOf t.home || t.folders.any p.isPrefixOf
    || t.files.any fun (q, _) => p.isPrefixOf q && p != q

/-- The files at home, by name. -/
def listing : List String :=
  let inside := t.files.filter fun (p, _) => t.home.isPrefixOf p
  (inside.map fun (p, _) => "/".intercalate (p.drop t.home.length)).mergeSort (· ≤ ·)

/-! ## Walking -/

/-- Where a route starts. -/
def start (r : Route) : Place := if r.isAbsolute then [] else t.home

/-- Why a text of so many bytes is refused before the first step. -/
def spellingFault? (r : Route) (size : Nat) : Option TransferCause :=
  if r.hasNul then some .badName
  else if Route.maxSize < size then some .nameTooLong
  else none

/-- Go from a folder to a folder. -/
def enter (folder : Place) (name : String) : Except TransferCause Place := do
  let p ← folder.step name
  if t.isFolder p then return p
  else if t.isFile p then throw .notAFolder
  else throw .notFound

/-- Walk to the folder in which the last name of a route is looked up. The outermost folder has no
name and is found in itself. -/
def approach (r : Route) : Except TransferCause (Place × String) := do
  if let some cause := spellingFault? r r.size then throw cause
  match r.names.getLast? with
  | none => if r.isAbsolute then return ([], ".") else throw .notFound
  | some name => return (← r.names.dropLast.foldlM t.enter (t.start r), name)

/-- The place that a route leads to, whether or not there is a file. -/
def locate (r : Route) : Except TransferCause Place := do
  let (folder, name) ← t.approach r
  if r.endsInSlash then t.enter folder name else folder.step name

/-- Read a file. -/
def read (path : String) : Except TransferCause (List UInt8) := do
  let p ← t.locate (.ofString path)
  match t.file? p with
  | some bytes => return bytes
  | none => throw (if t.isFolder p then .isAFolder else .notFound)

/-! ## Changing -/

/-- Put a file in place of whatever file was there. -/
def put (p : Place) (bytes : List UInt8) : FileTree :=
  { t with files := t.files.filter (·.1 != p) ++ [(p, bytes)] }

/-- Make a folder in one that is there. -/
def makeFolder (p : Place) : FileTree :=
  { t with folders := p :: t.folders.filter (! ·.isPrefixOf p) }

/-- Walk along names from a folder and make those that are missing. Behind the first that was made
each is a folder to be made in its turn, so a file in its place is already there; before that it is
no folder to pass through, unless it has the last name. What was made stays, also if a later one
cannot be made. -/
def provide (t : FileTree) (making : Bool) (folder : Place) :
    List String → FileTree × Except TransferCause Unit
  | [] => (t, .ok ())
  | name :: rest =>
    match folder.step name with
    | .error cause => (t, .error cause)
    | .ok p =>
      if t.isFolder p then t.provide making p rest
      else if t.isFile p then
        (t, .error (if making ∨ rest = [] then .alreadyThere else .notAFolder))
      else (t.makeFolder p).provide true p rest

/-- Make sure that there is a folder, and those it lies in. -/
def provideFolder (r : Route) : FileTree × Except TransferCause Unit :=
  match spellingFault? r r.size with
  | some cause => (t, .error cause)
  | none => t.provide false (t.start r) (r.names.filter (· ≠ "."))

/-- See to the folder that a file is to be written in. -/
def prepare (makeFolders : Bool) (folder : Route) : FileTree × Except TransferCause Unit :=
  if makeFolders then t.provideFolder folder else (t, .ok ())

/-- How many bytes the name of a draft takes. -/
def draftNameSize : Nat := 10

/-- How many bytes the text of a draft in a folder takes, from the outermost folder on. -/
def draftSize (folder : Route) : Nat :=
  (if folder.isAbsolute then 0 else t.home.size + 1) + folder.size + 1 + draftNameSize

/-- See that a draft can lie in a folder. -/
def checkDraft (folder : Route) : Except TransferCause Unit := do
  if let some cause := spellingFault? folder (t.draftSize folder) then throw cause
  discard (folder.names.foldlM t.enter (t.start folder))

/-- The place that a complete draft is moved to. -/
def target (r : Route) : Except TransferCause Place := do
  let (folder, name) ← t.approach r
  if name = "." ∨ name = ".." then throw .inUse
  let p ← folder.step name
  if r.endsInSlash then throw .notAFolder
  if t.isFolder p then throw .isAFolder
  return p

/-- Write a file: a draft first, in the folder that it lies in, which must be there or be made. -/
def write (makeFolders : Bool) (path : String) (bytes : List UInt8) :
    FileTree × Except TransferCause Unit :=
  let r := Route.ofString path
  let (t, prepared) := t.prepare makeFolders r.folder
  match prepared >>= fun _ => t.checkDraft r.folder >>= fun _ => t.target r with
  | .ok p => (t.put p bytes, .ok ())
  | .error cause => (t, .error cause)

end FileTree

/-- A file tree and the text printed so far. -/
structure Desk where
  tree : FileTree
  printed : String

namespace Desk

/-- The world whose files are a tree in memory. -/
def world : World (StateM Desk) where
  read path := do return ((← get).tree.read path).mapError .transfer
  write makeFolders path bytes := modifyGet fun d =>
    let (tree, written) := d.tree.write makeFolders path bytes
    (written.mapError .transfer, { d with tree })
  print text := modify fun d => { d with printed := d.printed ++ text }

end Desk

end Graft
