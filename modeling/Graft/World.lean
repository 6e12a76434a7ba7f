import Graft.Module.Store

/-!
# The world outside

Reading and writing files and printing text, for whatever monad `M` does it. Module files are opened
and written through it.
-/

namespace Graft

/-- What a program can do outside of itself. -/
structure World (M : Type → Type) where
  /-- The contents of a file. -/
  read : (path : String) → M (Except Fault (List UInt8))
  /-- Put a file in place, whole or not at all; missing folders are made if that is asked for. -/
  write : (makeFolders : Bool) → (path : String) → List UInt8 → M (Except Fault Unit)
  print : String → M Unit

namespace World

variable {M : Type → Type} [Monad M] (w : World M)

/-- Read a file that holds a text. -/
def readText (path : String) : ExceptT Fault M String := do
  let bytes ← ExceptT.mk (w.read path)
  match Text.Utf8.decodeString bytes with
  | .ok text => return text
  | .error _ => throw (.transfer .notText)

/-- Read a file that holds a module. -/
def openModule (path : String) : ExceptT Fault M Module := do
  let bytes ← ExceptT.mk (w.read path)
  liftExcept (ModuleFile.ofBytes bytes >>= ModuleFile.load)
where
  /-- A value or a fault that needs nothing from outside. -/
  liftExcept {α : Type} (x : Except Fault α) : ExceptT Fault M α := ExceptT.mk (pure x)

/-- Write a module to a file. -/
def writeModule (makeFolders : Bool) (path : String) (m : Module) : ExceptT Fault M Unit := do
  let file ← ExceptT.mk (pure m.toFile)
  ExceptT.mk (w.write makeFolders path file.encode)

end World

end Graft
