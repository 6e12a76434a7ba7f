import Graft.Signature

/-!
# Exception ranges

A protected region and its handler. Both run from a first to a last instruction, each included. A
filter has code of its own, which decides whether the handler runs.
-/

namespace Graft

/-- What is done when control leaves the protected region. -/
inductive HandlerKind (L : Type) where
  /-- Handle exceptions of the type; the handler finds the exception on the stack. -/
  | catching (type : TypeSig)
  /-- Handle exceptions that the filter, which starts at the label, accepts. -/
  | filter (start : L)
  | finallyDo
  | fault
  deriving DecidableEq, Repr

namespace HandlerKind

variable {L L' : Type}

/-- The label of the kind: where a filter starts. -/
def labels : HandlerKind L → List L
  | filter start => [start]
  | _ => []

/-- Refer to instructions by another kind of label. -/
def mapLabels (f : L → L') : HandlerKind L → HandlerKind L'
  | catching type => catching type
  | filter start => filter (f start)
  | finallyDo => finallyDo
  | fault => fault

/-- Refer to instructions by another kind of label, if the label has a counterpart. -/
def mapLabelsM {ε : Type} (f : L → Except ε L') : HandlerKind L → Except ε (HandlerKind L')
  | catching type => .ok (catching type)
  | filter start => (f start).map filter
  | finallyDo => .ok finallyDo
  | fault => .ok fault

end HandlerKind

/-- A protected region and its handler, with labels `L` as markers. -/
structure ExceptionRange (L : Type) where
  kind : HandlerKind L
  tryStart : L
  tryEnd : L
  handlerStart : L
  handlerEnd : L
  deriving DecidableEq, Repr

namespace ExceptionRange

variable {L L' : Type}

/-- Every instruction that the range refers to. -/
def markers (r : ExceptionRange L) : List L :=
  [r.tryStart, r.tryEnd, r.handlerStart, r.handlerEnd] ++ r.kind.labels

/-- Where control enters the code of the range, and with how many values on the stack: handlers of
exceptions and filters find the exception there. -/
def entryPoints (r : ExceptionRange L) : List (L × Nat) :=
  match r.kind with
  | .catching _ => [(r.handlerStart, 1)]
  | .filter start => [(start, 1), (r.handlerStart, 1)]
  | .finallyDo => [(r.handlerStart, 0)]
  | .fault => [(r.handlerStart, 0)]

/-- The type of the exceptions that are handled, if the range names one. -/
def caught? (r : ExceptionRange L) : Option TypeSig :=
  match r.kind with
  | .catching type => some type
  | _ => none

/-- Refer to instructions by another kind of label. -/
def mapLabels (f : L → L') (r : ExceptionRange L) : ExceptionRange L' where
  kind := r.kind.mapLabels f
  tryStart := f r.tryStart
  tryEnd := f r.tryEnd
  handlerStart := f r.handlerStart
  handlerEnd := f r.handlerEnd

/-- Refer to instructions by another kind of label, or stop at the first label that has no
counterpart; the filter comes first, then the protected region, then the handler. -/
def mapLabelsM {ε : Type} (f : L → Except ε L') (r : ExceptionRange L) :
    Except ε (ExceptionRange L') := do
  let kind ← r.kind.mapLabelsM f
  let tryStart ← f r.tryStart
  let tryEnd ← f r.tryEnd
  let handlerStart ← f r.handlerStart
  let handlerEnd ← f r.handlerEnd
  return { kind, tryStart, tryEnd, handlerStart, handlerEnd }

@[simp] theorem markers_mapLabels (f : L → L') (r : ExceptionRange L) :
    (r.mapLabels f).markers = r.markers.map f := by
  obtain ⟨kind, _, _, _, _⟩ := r
  cases kind <;> rfl

end ExceptionRange

end Graft
