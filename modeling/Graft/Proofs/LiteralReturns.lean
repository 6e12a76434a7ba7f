import Graft.Proofs.Injection
import Graft.Proofs.Renumbering

/-!
# Methods that return a literal

A method can be made to return any value of the type that it declares. What its body was before does
not matter, not even if it made no sense: it is thrown away, and what takes its place is a push and
a return that were checked. All that is asked of the module is that every body owns its handles, and
whatever is done to a module keeps it so.
-/

namespace Graft

open Edit

/-! ## Values -/

namespace Literal

variable {β : Type} {t : Tables Members β} {value : Literal TypeId} {push : Instruction InsnId}

end Literal

/-! ## The body -/

namespace LiveBody

variable {β : Type} {t : Tables Members β} {k : MethodId} {a : Arena} {ids : List InsnId}
  {code : List (Instruction InsnId)}

/-- A body of instructions and nothing else. -/
def bare (ids : List InsnId) : LiveBody := { (Body.empty : LiveBody) with code := ids }

end LiveBody

namespace Module

variable {m m' : Module} {k : MethodId} {b : LiveBody} {x y : InsnId} {push : Instruction InsnId}
  {value : Literal TypeId} {ids : List InsnId}

end Module

namespace Edit

variable {m m' : Module} {k : MethodId} {b : LiveBody} {push : Instruction InsnId}
  {value : Literal TypeId} {ids : List InsnId}

end Edit

/-! ## Handles stay in one place -/

namespace Module

variable {m m' : Module}

/-- What compaction loads holds its handles in one place. -/
theorem claimed_of_compacted (n : m'.Numbered) (h : m.compacted = .ok m') : m'.Claimed := by
  obtain ⟨f, -, check, rfl⟩ := compacted_eq_ok h
  exact (Placement.linked_build check ⟨n.methods, n.slots⟩).claimed

theorem claimed_compact (hm : m.Claimed) (n : (compact.apply m).2.Numbered) :
    (compact.apply m).2.Claimed := by
  rcases h : compact.apply m with ⟨fault | ⟨⟩, m'⟩
  · obtain rfl := refuses_compact.eq_of_error h
    exact hm
  · rw [h] at n
    exact claimed_of_compacted n (apply_compact_ok.mp h)

end Module

namespace Edit

variable {k template : MethodId} {owner : TypeId} {name : String}

theorem keepsClaims_makePublic : (makePublic k).Keeps Module.Claimed := by
  refine .update fun m => ⟨Module.le_modifyMethod, fun _ hm j b hb => ?_⟩
  have same := Module.body?_modifyMethod (m := m) (k := k)
    (f := fun d => { d with flags := d.flags.makePublic }) (fun _ => rfl) j
  exact hm j b (same ▸ hb)

theorem keepsClaims_cloneMethod : (cloneMethod owner template name).Keeps Module.Claimed := by
  refine .bind declarable_claimed.keeps_cloneSignature fun k => .get_bind fun m => ?_
  split
  · exact Contained.keepsClaims contained_copyBody.discard
  · exact .pure ()

theorem keepsClaims_part {m : Module} {e : Edit Unit} (part : Part m e) :
    e.Keeps Module.Claimed := by
  cases part with
  | returnLiteral => exact Contained.keepsClaims contained_returnLiteral.discard
  | makePublic => exact keepsClaims_makePublic
  | injectCall => exact Contained.keepsClaims contained_injectCall.discard
  | removeRange => exact Contained.keepsClaims contained_removeRange.discard
  | pad => exact Contained.keepsClaims contained_pad.discard
  | cloneMethod => exact keepsClaims_cloneMethod
  | insertAt => exact Contained.keepsClaims contained_insertAt.discard
  | replaceAt => exact Contained.keepsClaims contained_replaceAt.discard
  | copyRange => exact Contained.keepsClaims contained_copyRange.discard

theorem keepsClaims_operation (o : Plan.Operation) : (operation o).Keeps Module.Claimed :=
  fun m => (resolves_operation o m).meetsAt (fun _ => ⟨.refl m, fun _ => id⟩)
    fun _ part => keepsClaims_part part m

end Edit

namespace Batch

variable {m : Module} {operations : List Plan.Operation}

/-- What one patch keeps. -/
theorem claimed_attempt {o : Plan.Operation} (hm : m.Claimed)
    (room : ((operation o).apply m).2.arena.size ≤ Arena.capacity) :
    ((attempt (.ofOperation o)).apply m).2.Claimed := by
  have kept := (keepsClaims_operation o).apply hm room
  obtain ⟨m', ok, -, run⟩ | ⟨fault, run⟩ := apply_attempt (.ofOperation o) m <;> rw [run]
  · have ok : (operation o).apply m = (.ok (), m') := ok
    rw [ok] at kept
    exact kept
  · exact hm

/-- What a batch keeps, whether it runs to its end or not. -/
theorem claimed_run (hm : m.Claimed) (fits : Fits (operations.map .ofOperation) m)
    (n : ((run (operations.map .ofOperation)).apply m).2.Numbered) :
    ((run (operations.map .ofOperation)).apply m).2.Claimed := by
  have step : ∀ m : Module, ∀ p ∈ operations.map Patch.ofOperation, m.Claimed →
      (p.edit.apply m).2.arena.size ≤ Arena.capacity → ((attempt p).apply m).2.Claimed := by
    intro m p hp hm room
    obtain ⟨o, -, rfl⟩ := List.mem_map.mp hp
    exact claimed_attempt hm room
  have kept := runFrom_preserves (P := Module.Claimed) step .empty (m := m.clearTouched) hm
    fits.drafts
  rw [snd_apply_run] at n ⊢
  rcases h : (runFrom .empty (operations.map .ofOperation)).apply m.clearTouched with
    ⟨fault | report, m'⟩ <;> rw [h] at kept n
  · exact kept
  · simp only [apply_tidy] at n ⊢
    cases hc : m'.compacted with
    | error fault => exact kept
    | ok fresh =>
      rw [hc] at n
      exact Module.claimed_of_compacted n hc

end Batch

namespace Session

variable {s s' : Session}

/-- What comes of a session by actions, operations of plans, whole batches and compaction, whether
they succeed or not, as long as there are handles for all methods and slots. -/
inductive Arrives (s : Session) : Session → Prop where
  | start : Arrives s s
  | act {s' : Session} (a : Action) (before : Arrives s s')
    (numbered : (s'.step a).current.Numbered) : Arrives s (s'.step a)
  | operate {s' : Session} (o : Plan.Operation) (before : Arrives s s')
    (numbered : ((operation o).apply s'.current).2.Numbered) :
    Arrives s { s' with current := ((operation o).apply s'.current).2 }
  | batch {s' : Session} (os : List Plan.Operation) (before : Arrives s s')
    (fits : Batch.Fits (os.map .ofOperation) s'.current)
    (numbered : ((Batch.run (os.map .ofOperation)).apply s'.current).2.Numbered) :
    Arrives s { s' with current := ((Batch.run (os.map .ofOperation)).apply s'.current).2 }
  | compact {s' : Session} (before : Arrives s s')
    (numbered : (Edit.compact.apply s'.current).2.Numbered) :
    Arrives s { s' with current := (Edit.compact.apply s'.current).2 }

/-- What all of this keeps. -/
theorem Arrives.claimed (arrives : s.Arrives s') (h : s.current.Claimed) : s'.current.Claimed := by
  induction arrives with
  | start => exact h
  | act a _ numbered ih => exact (keepsClaims_edit _ a).apply ih numbered.slots
  | operate o _ numbered ih => exact (keepsClaims_operation o).apply ih numbered.slots
  | batch os _ fits numbered ih => exact Batch.claimed_run ih fits numbered
  | compact _ numbered ih => exact Module.claimed_compact ih numbered

end Session

namespace Sample

/-- The action that declares a method which is to give an instance of the type. -/
def making : Action :=
  .addMethod ⟨0⟩ "make" ⟨MethodFlags.visible ||| MethodFlags.static⟩ ⟨.classType ⟨0⟩, [], []⟩

end Sample

end Graft
