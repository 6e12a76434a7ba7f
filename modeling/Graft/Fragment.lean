import Graft.Module
import Graft.Positions
import Graft.Traverse

/-!
# Fragments

A sequence of instructions that belongs to no body, with the exception ranges that lie in it. Labels
are positions inside the fragment, and none leads out of it, so a fragment can be put anywhere, and
any number of times, without breaking its jumps.
-/

namespace Graft

/-- Instructions and exception ranges that refer to one another by position. -/
structure Fragment where
  code : List (Instruction Nat)
  ranges : List (ExceptionRange Nat)
  targets_lt : ∀ i ∈ code, ∀ l ∈ i.targets, l < code.length
  markers_lt : ∀ r ∈ ranges, ∀ l ∈ r.markers, l < code.length
  deriving DecidableEq

namespace Fragment

/-- How faults call the method of a fragment, which has none. -/
def detached : String := "<fragment>"

/-- Does a range have a marker outside of the given length, or end before it starts? -/
def isBadRange (length : Nat) (r : ExceptionRange Nat) : Bool :=
  r.markers.any (length ≤ ·) || r.tryEnd < r.tryStart || r.handlerEnd < r.handlerStart

/-- The fragment of instructions and ranges whose labels all lie inside. -/
def ofParts (code : List (Instruction Nat)) (ranges : List (ExceptionRange Nat)) :
    Except Fault Fragment :=
  match hcode : code.findIdx? fun i => i.targets.any (code.length ≤ ·) with
  | some position => .error (.externalBranch detached position)
  | none =>
    match hranges : ranges.findIdx? (isBadRange code.length) with
    | some index => .error (.partialRange detached index)
    | none => .ok {
        code, ranges
        targets_lt := fun i hi l hl => by
          have h := List.findIdx?_eq_none_iff.mp hcode i hi
          rw [List.any_eq_false] at h
          simpa using h l hl
        markers_lt := fun r hr l hl => by
          have h := List.findIdx?_eq_none_iff.mp hranges r hr
          simp only [isBadRange, Bool.or_eq_false_iff, List.any_eq_false] at h
          simpa using h.1.1 l hl }

/-- The fragment of instructions that do not refer to one another. -/
def straight (code : List (Instruction Empty)) : Fragment where
  code := code.map (·.mapLabels nofun)
  ranges := []
  targets_lt := by
    intro i hi l hl
    obtain ⟨j, -, rfl⟩ := List.mem_map.mp hi
    rw [Instruction.targets_mapLabels] at hl
    obtain ⟨x, -, -⟩ := List.mem_map.mp hl
    exact x.elim
  markers_lt := by simp

/-- As many pushes as pops: the stack is as deep after them as before. -/
def padding (count : Nat) : Fragment :=
  straight (List.replicate count (.ldcI4 0) ++ List.replicate count .pop)

/-- The instructions with the label `l` being the handle `first + l`. -/
def instructions (f : Fragment) (first : Nat) : List (Instruction InsnId) :=
  f.code.map (·.mapLabels fun l => .ofIndex (first + l))

/-- The exception ranges with the label `l` being the handle `first + l`. -/
def liveRanges (f : Fragment) (first : Nat) : List (ExceptionRange InsnId) :=
  f.ranges.map (·.mapLabels fun l => .ofIndex (first + l))

end Fragment

/-! ## Lifting a fragment out of a body -/

namespace Module

variable (m : Module)

/-- Positions `first` to `last`, both included, must be positions of the body in this order. -/
def checkSpan (k : MethodId) (b : LiveBody) (first last : Nat) : Except Fault Unit :=
  if last < first then .error (.positionOutOfRange (m.methodName k) first b.code.length)
  else if b.code.length ≤ last then
    .error (.positionOutOfRange (m.methodName k) last b.code.length)
  else .ok ()

/-- The instruction of a handle that stands at a position, its jump targets looked up. -/
def liftInstruction (k : MethodId) (inside : Positions) (id : InsnId) (position : Nat) :
    Except Fault (Instruction Nat) :=
  match m.instruction? id with
  | none => .error (.notInBody (m.methodName k) id)
  | some i => i.mapLabelsM fun target =>
    match inside.find? target with
    | some l => .ok l
    | none => .error (.externalBranch (m.methodName k) position)

/-- An exception range with its markers looked up; none if no marker is found, a fault if some are
found and some are not. -/
def liftRange? (k : MethodId) (inside : Positions) (r : ExceptionRange InsnId) (index : Nat) :
    Except Fault (Option (ExceptionRange Nat)) :=
  if r.markers.all fun l => (inside.find? l).isNone then .ok none
  else
    (r.mapLabelsM fun l =>
      match inside.find? l with
      | some l => .ok l
      | none => .error (.partialRange (m.methodName k) index)).map some

theorem targets_of_liftInstruction {k : MethodId} {inside : Positions} {id : InsnId} {p : Nat}
    {i : Instruction Nat} (h : m.liftInstruction k inside id p = .ok i) :
    ∀ l ∈ i.targets, ∃ x, inside.find? x = some l := by
  intro l hl
  unfold liftInstruction at h
  split at h
  · cases h
  · obtain ⟨x, -, hx⟩ := exists_of_mem_mapM (Instruction.targets_mapLabelsM h) hl
    refine ⟨x, ?_⟩
    split at hx <;> simp_all

theorem markers_of_liftRange? {k : MethodId} {inside : Positions} {r : ExceptionRange InsnId}
    {index : Nat} {s : ExceptionRange Nat} (h : m.liftRange? k inside r index = .ok (some s)) :
    ∀ l ∈ s.markers, ∃ x, inside.find? x = some l := by
  intro l hl
  unfold liftRange? at h
  split at h
  · cases h
  · rename_i found
    generalize hmapped : r.mapLabelsM _ = mapped at h
    cases mapped with
    | error fault => cases h
    | ok s' =>
      cases h
      obtain ⟨x, -, hx⟩ := ExceptionRange.exists_of_mem_markers_mapLabelsM hmapped hl
      refine ⟨x, ?_⟩
      split at hx <;> simp_all

/-- The instructions at positions `first` to `last` of a body, as a fragment. Jumps must not leave
the span. Exception ranges come along if all their markers lie in the span and stay behind if none
does. -/
def extract (k : MethodId) (first last : Nat) : Except Fault Fragment := do
  let b ← m.body k
  m.checkSpan k b first last
  let span := (b.code.drop first).take (last + 1 - first)
  let inside := Positions.ofList span
  match hcode : span.zipIdx.mapM fun (id, p) => m.liftInstruction k inside id (first + p) with
  | .error fault => throw fault
  | .ok code =>
    match hranges : b.ranges.zipIdx.mapM fun (r, i) => m.liftRange? k inside r i with
    | .error fault => throw fault
    | .ok ranges => return {
        code
        ranges := ranges.filterMap id
        targets_lt := by
          intro i hi l hl
          obtain ⟨⟨x, p⟩, -, hx⟩ := exists_of_mem_mapM hcode hi
          obtain ⟨y, hy⟩ := m.targets_of_liftInstruction hx l hl
          have := Positions.lt_length_of_find? hy
          rw [length_of_mapM_eq_ok hcode, List.length_zipIdx]
          exact this
        markers_lt := by
          intro r hr l hl
          obtain ⟨r', hr', same⟩ := List.mem_filterMap.mp hr
          obtain rfl : r' = some r := same
          obtain ⟨⟨x, p⟩, -, hx⟩ := exists_of_mem_mapM hranges hr'
          obtain ⟨y, hy⟩ := m.markers_of_liftRange? hx l hl
          have := Positions.lt_length_of_find? hy
          rw [length_of_mapM_eq_ok hcode, List.length_zipIdx]
          exact this }

end Module

end Graft
