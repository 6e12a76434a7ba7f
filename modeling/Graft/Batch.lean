import Graft.Edit.Compact
import Graft.Plan.Reader

/-!
# Batches

Patches are applied one after the other. Once a patch has run, every body that it touched is
verified. A patch that names something that is not there is undone and skipped; any other fault
undoes the patch and ends the batch. A batch that runs to its end compacts the module if it can.
-/

namespace Graft

/-- An edit with a name. -/
structure Patch where
  name : String
  edit : Edit Unit

/-- The patch of an operation. -/
def Patch.ofOperation (o : Plan.Operation) : Patch := ⟨o.name, Edit.operation o⟩

/-- What became of the patches of a batch that ran to its end: the names of those applied, and of
those skipped with the reason, each in order. -/
structure Report where
  applied : List String
  skipped : List (String × Fault)
  deriving DecidableEq, Repr

namespace Report

/-- The report before the first patch. -/
def empty : Report := ⟨[], []⟩

/-- Note a patch that was applied. -/
def addApplied (r : Report) (name : String) : Report := { r with applied := r.applied ++ [name] }

/-- Note a patch that was skipped. -/
def addSkipped (r : Report) (name : String) (fault : Fault) : Report :=
  { r with skipped := r.skipped ++ [(name, fault)] }

end Report

namespace Batch

/-- Verify the bodies that were touched. -/
def verifyTouched : Edit Unit := Edit.check fun m => m.verifyBodies m.touched

/-- Run a patch and verify what it touched. Afterwards nothing counts as touched. If there was a
fault the module is as it was before. -/
def attempt (p : Patch) : Edit Unit := fun before =>
  match (do p.edit; verifyTouched : Edit Unit) before with
  | (.ok (), after) => (.ok (), after.clearTouched)
  | (.error fault, _) => (.error fault, before)

/-- Run patches in order, behind those in the report. -/
def runFrom (report : Report) : List Patch → Edit Report
  | [] => pure report
  | p :: rest => fun m =>
    match attempt p m with
    | (.ok (), m) => runFrom (report.addApplied p.name) rest m
    | (.error fault, m) =>
      if fault.isSoft then runFrom (report.addSkipped p.name fault) rest m
      else (.error fault, m)

/-- Compact the module, or leave it as it is if that is not possible. -/
def tidy : Edit Unit := fun m => (.ok (), (Edit.compact m).2)

/-- Run a batch. Nothing counts as touched when it starts. -/
def run (patches : List Patch) : Edit Report := do
  Edit.update Module.clearTouched
  let report ← runFrom Report.empty patches
  tidy
  return report

/-- The batch of a plan. -/
def ofPlan (text : String) : Except Fault (List Patch) :=
  (Plan.read text).map (·.map Patch.ofOperation)

end Batch

end Graft
