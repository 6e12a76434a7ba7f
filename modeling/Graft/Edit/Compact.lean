import Graft.Edit.Basic
import Graft.Module.Store

/-!
# Compaction

Released slots stay in the arena until it is rebuilt from what the bodies hold.
-/

namespace Graft.Edit

/-- Rebuild the arena with the instructions of the bodies only. All handles change. -/
def compact : Edit Unit := do
  let fresh ← check (·.compacted)
  set fresh

end Graft.Edit
