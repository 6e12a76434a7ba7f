import Graft.Command
import Graft.Route

/-!
# The program

The command line in the world of the operating system.
-/

namespace Graft.Program

/-- The fault that an error of the operating system is. -/
def faultOf : IO.Error → Fault
  | .noFileOrDirectory .. => .transfer .notFound
  | e => .transfer (.other (toString e))

/-- Do something outside; an error is a fault. -/
def guarded {α : Type} (action : IO α) : IO (Except Fault α) := do
  try
    return .ok (← action)
  catch e =>
    return .error (faultOf e)

/-- Write a file in the folder where it belongs and move it to its place when it is complete. -/
def writeWhole (makeFolders : Bool) (path : String) (bytes : List UInt8) : IO Unit := do
  let folder := (Route.ofString path).folder.text
  if makeFolders then IO.FS.createDirAll folder
  let draft := folder ++ "/.draft" ++ toString (← IO.monoNanosNow)
  IO.FS.writeBinFile draft (ByteArray.mk bytes.toArray)
  try
    IO.FS.rename draft path
  catch e =>
    IO.FS.removeFile draft
    throw e

/-- The world of the operating system. -/
def world : World IO where
  read path := guarded do return (← IO.FS.readBinFile path).toList
  write makeFolders path bytes := guarded (writeWhole makeFolders path bytes)
  print text := IO.print text

end Graft.Program

def main (args : List String) : IO UInt32 := do
  let ending ← Graft.Command.runArgs Graft.Program.world args
  match ending with
  | .done => pure ()
  | .failed fault => IO.eprintln ("Error: " ++ fault.message)
  | .misused => IO.eprintln "The arguments make no sense; --help shows what can be asked for."
  return ending.exitCode
