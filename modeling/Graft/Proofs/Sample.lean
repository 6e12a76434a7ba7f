import Graft.ModuleFile

/-!
# A small module

One type with one method, whose body jumps and handles exceptions. General theorems are instantiated
with it where their hypotheses have to be shown to hold of something.
-/

namespace Graft.Sample

/-- A protected region that is left, a handler that drops the exception, and a return. -/
def body : FileBody where
  maxStack := 1
  initLocals := false
  locals := []
  code := [.nop, .leave 4, .pop, .leave 4, .ldcI4 7, .ret]
  ranges := [⟨.catching (.primitive .object), 0, 1, 2, 3⟩]

/-- The file of the module. -/
def file : ModuleFile where
  version := ModuleFile.currentVersion
  name := "sample"
  types := #[⟨"", "Counter", ⟨TypeFlags.visible⟩, none, ()⟩]
  fields := #[]
  methods := #[⟨⟨0⟩, "next", ⟨MethodFlags.visible ||| MethodFlags.static⟩,
    ⟨.primitive .int, [], []⟩, some body⟩]

end Graft.Sample
