import Graft.Proofs.Frame
import Graft.Proofs.Verification

/-!
# Verified bodies elsewhere

A body that verifies still does when its handles are exchanged for others, as long as instructions
and labels follow, and when the tables grow: the simulation sees positions and stack effects only. A
body that an edit of another one leaves alone is the case that no handle is exchanged.
-/

namespace Graft

/-! ## Larger tables -/

namespace Tables

variable {μ μ' β β' : Type} {t : Tables μ β} {t' : Tables μ' β'} {k : MethodId} {L L' : Type}
  {i : Instruction L}

/-- What is in the first tables is in the second, and methods are called in the same way. -/
structure Extends (t : Tables μ β) (t' : Tables μ' β') : Prop where
  types : t.types.size ≤ t'.types.size
  fields : t.fields.size ≤ t'.fields.size
  method : ∀ k d, t.method? k = some d →
    ∃ d', t'.method? k = some d' ∧ d'.signature = d.signature ∧ d'.isStatic = d.isStatic

theorem Extends.of_declarations {t' : Tables μ β'} (h : t'.declarations = t.declarations) :
    t.Extends t' where
  types := by rw [types_eq_of_declarations h]
  fields := by rw [fields_eq_of_declarations h]
  method k d hd := by
    have head := head_of_declarations h k
    rw [hd] at head
    obtain ⟨d', hd', same⟩ := Option.map_eq_some_iff.mp head
    exact ⟨d', hd', Method.signature_of_head same, Method.isStatic_of_head same⟩

theorem Extends.trans {μ'' β'' : Type} {t'' : Tables μ'' β''} (h : t.Extends t')
    (h' : t'.Extends t'') : t.Extends t'' where
  types := h.types.trans h'.types
  fields := h.fields.trans h'.fields
  method k d hd := by
    obtain ⟨d', hd', signature, static⟩ := h.method k d hd
    obtain ⟨d'', hd'', signature', static'⟩ := h'.method k d' hd'
    exact ⟨d'', hd'', signature'.trans signature, static'.trans static⟩

variable (h : t.Extends t')
include h

theorem Extends.resolves (hi : i.Resolves t) : i.Resolves t' where
  field id hid := (hi.field id hid).trans_le h.fields
  method id hid := by
    obtain ⟨d', hd', -⟩ := h.method id _ (Array.getElem?_eq_getElem (hi.method id hid))
    exact (Array.getElem?_eq_some_iff.mp hd').1
  type s id hs hid := (hi.type s id hs hid).trans_le h.types

theorem Extends.argumentCount_eq (hk : (t.method? k).isSome) :
    t'.argumentCount k = t.argumentCount k := by
  obtain ⟨d, hd⟩ := Option.isSome_iff_exists.mp hk
  obtain ⟨d', hd', signature, static⟩ := h.method k d hd
  simp [argumentCount, hd, hd', Method.argumentCount, signature, static]

theorem Extends.givesValue_eq (hk : (t.method? k).isSome) :
    t'.givesValue k = t.givesValue k := by
  obtain ⟨d, hd⟩ := Option.isSome_iff_exists.mp hk
  obtain ⟨d', hd', signature, -⟩ := h.method k d hd
  simp [givesValue, hd, hd', signature]

theorem Extends.callEffect_eq {form : CallForm} (hk : (t.method? k).isSome) :
    t'.callEffect form k = t.callEffect form k := by
  obtain ⟨d, hd⟩ := Option.isSome_iff_exists.mp hk
  obtain ⟨d', hd', signature, static⟩ := h.method k d hd
  cases form <;>
    simp [callEffect, h.givesValue_eq hk, hd, hd', Method.argumentCount, signature, static]

theorem Extends.stackEffect_eq_of_givesValue {k' : MethodId}
    (value : t'.givesValue k' = t.givesValue k) (hi : i.Resolves t) :
    t'.stackEffect k' i = t.stackEffect k i := by
  refine stackEffect_congr (fun form id call => h.callEffect_eq ?_) value
  subst call
  rw [method?, Array.getElem?_eq_getElem (hi.method id rfl)]
  rfl

theorem Extends.stackEffect_eq (hk : (t.method? k).isSome) (hi : i.Resolves t) :
    t'.stackEffect k i = t.stackEffect k i :=
  h.stackEffect_eq_of_givesValue (h.givesValue_eq hk) hi

omit h

@[simp] theorem stackEffect_mapLabels (f : L → L') :
    t.stackEffect k (i.mapLabels f) = t.stackEffect k i := by
  cases i with
  | arg access index => cases access <;> rfl
  | loc access index => cases access <;> rfl
  | field access id => cases access <;> rfl
  | typed op s => cases op <;> rfl
  | _ => rfl

end Tables

/-! ## Other handles -/

namespace LiveBody

variable {μ μ' β β' : Type} {t : Tables μ β} {t' : Tables μ' β'} {k : MethodId}
  {f : InsnId → InsnId}
  {a a' : Arena} {b b' : LiveBody} {x : InsnId}

/-- The second body is the first with other handles. -/
structure Relocated (k : MethodId) (f : InsnId → InsnId) (a a' : Arena) (b b' : LiveBody) :
    Prop where
  code : b'.code = b.code.map f
  ranges : b'.ranges = b.ranges.map (·.mapLabels f)
  locals : b'.locals.length = b.locals.length
  maxStack : b'.maxStack = b.maxStack
  injective : ∀ x ∈ b.code, ∀ y ∈ b.code, f x = f y → x = y
  get? : ∀ id ∈ b.code, a'.get? (f id) = (a.get? id).map (·.mapLabels f)
  owner? : ∀ id ∈ b.code, a'.owner? (f id) = some k

/-- No handle is exchanged. -/
theorem Relocated.of_slots (owner? : ∀ id ∈ b.code, a.owner? id = some k)
    (slots : ∀ id ∈ b.code, a'.slot? id = a.slot? id) : Relocated k id a a' b b where
  code := (List.map_id _).symm
  ranges := by simp
  locals := rfl
  maxStack := rfl
  injective _ _ _ _ := id
  get? x hx := by
    rw [id_eq, Arena.get?_eq_of_slot? (slots x hx)]
    cases a.get? x <;> simp
  owner? x hx := by rw [id_eq, Arena.owner?_eq_of_slot? (slots x hx), owner? x hx]

namespace Relocated

variable (h : Relocated k f a a' b b')
include h

theorem nodup (distinct : b.code.Nodup) : b'.code.Nodup := by
  rw [h.code]
  exact List.Nodup.map_on (fun x hx y hy => h.injective x hx y hy) distinct

/-- Handles stand where those stood that they were exchanged for. -/
theorem idxOf_eq (distinct : b.code.Nodup) (hx : x ∈ b.code) :
    b'.code.idxOf (f x) = b.code.idxOf x := by
  refine Places.idxOf_of_getElem? (h.nodup distinct) ?_
  rw [h.code, List.getElem?_map, Places.getElem?_idxOf hx]
  rfl

theorem exists_get? {i : Instruction InsnId} (hx : x ∈ b'.code) (hi : a'.get? x = some i) :
    ∃ y ∈ b.code, ∃ j, x = f y ∧ a.get? y = some j ∧ i = j.mapLabels f := by
  rw [h.code] at hx
  obtain ⟨y, hy, rfl⟩ := List.mem_map.mp hx
  rw [h.get? y hy] at hi
  obtain ⟨j, hj, rfl⟩ := Option.map_eq_some_iff.mp hi
  exact ⟨y, hy, j, rfl, hj, rfl⟩

theorem linked (linked : b.Linked a) : b'.Linked a' where
  nodup := h.nodup linked.nodup
  targets id hid i hi l hl := by
    obtain ⟨x, hx, j, rfl, hj, rfl⟩ := h.exists_get? hid hi
    rw [Instruction.targets_mapLabels] at hl
    obtain ⟨y, hy, rfl⟩ := List.mem_map.mp hl
    rw [h.code]
    exact List.mem_map_of_mem (linked.targets x hx j hj y hy)
  markers r hr l hl := by
    rw [h.ranges] at hr
    obtain ⟨s, hs, rfl⟩ := List.mem_map.mp hr
    rw [ExceptionRange.markers_mapLabels] at hl
    obtain ⟨y, hy, rfl⟩ := List.mem_map.mp hl
    rw [h.code]
    exact List.mem_map_of_mem (linked.markers s hs y hy)

theorem sound (tables : t.Extends t') (hk : (t.method? k).isSome) (sound : b.Sound t k a) :
    b'.Sound t' k a' where
  toLinked := h.linked sound.toLinked
  resolves id hid i hi := by
    obtain ⟨x, hx, j, rfl, hj, rfl⟩ := h.exists_get? hid hi
    rw [Instruction.resolves_mapLabels]
    exact tables.resolves (sound.resolves x hx j hj)
  fits id hid i hi := by
    obtain ⟨x, hx, j, rfl, hj, rfl⟩ := h.exists_get? hid hi
    rw [Instruction.fits_mapLabels, tables.argumentCount_eq hk, h.locals]
    exact sound.fits x hx j hj
  ordered r hr := by
    rw [h.ranges] at hr
    obtain ⟨s, hs, rfl⟩ := List.mem_map.mp hr
    refine (sound.ordered s hs).mapLabels fun x hx y hy le => ?_
    rw [h.idxOf_eq sound.nodup (sound.markers s hs x hx),
      h.idxOf_eq sound.nodup (sound.markers s hs y hy)]
    exact le

theorem entries_eq (linked : b.Linked a) : b'.entries = b.entries := by
  rw [entries, entries, h.ranges, List.flatMap_map]
  refine congrArg _ (List.flatMap_congr fun r hr => ?_)
  rw [ExceptionRange.entryPoints_mapLabels, List.map_map]
  refine List.map_congr_left fun e he => ?_
  have hm := linked.markers r hr e.1 (ExceptionRange.mem_markers_of_mem_entryPoints he)
  simp only [Function.comp_apply, h.idxOf_eq linked.nodup hm]

end Relocated

end LiveBody

/-- An instruction with exchanged labels has the same successors. -/
theorem Instruction.successors_mapLabels {L L' : Type} {f : L → L'} {place : L → Nat}
    {place' : L' → Nat} {effect : StackEffect} {p depth : Nat} {i : Instruction L}
    (same : ∀ l ∈ i.targets, place' (f l) = place l) :
    (i.mapLabels f).successors place' effect p depth = i.successors place effect p depth := by
  simp only [successors, left, targets_mapLabels, fallsThrough_mapLabels, emptiesStack_mapLabels,
    List.map_map]
  refine congrArg (· ++ _) (List.map_congr_left fun l hl => ?_)
  simp only [Function.comp_apply, same l hl]

/-! ## Verified bodies -/

namespace Module

variable {m m' : Module} {j k : MethodId} {f : InsnId → InsnId} {b b' : LiveBody} {r : Nat}

theorem Verified.relocate (h : m.Verified k b r) (hb : m.body? k = some b)
    (hb' : m'.body? k = some b') (tables : m.toTables.Extends m'.toTables)
    (moved : LiveBody.Relocated k f m.arena m'.arena b b') : m'.Verified k b' r := by
  have linked := h.sound.toLinked
  have linked' := moved.linked linked
  have method : (m.method? k).isSome := by
    obtain ⟨d, hd, -⟩ := exists_method? hb
    simp [hd]
  have filled : b'.code ≠ [] := by simpa [moved.code] using h.filled
  have length : b'.code.length = b.code.length := by simp [moved.code]
  refine ⟨filled, ?_, moved.sound tables method h.sound, ?_, moved.maxStack ▸ h.declared⟩
  · rw [moved.code]
    intro id hid
    obtain ⟨x, hx, rfl⟩ := List.mem_map.mp hid
    exact moved.owner? x hx
  · -- both simulations are searches from the same entries, so it is enough to compare their steps
    have simulate := h.simulate
    rw [simulate_eq hb linked h.filled] at simulate
    rw [simulate_eq hb' linked' filled, length, moved.entries_eq linked]
    refine Simulation.visit_eq_ok_of_steps (fun p depth out hp step => ?_) simulate
    have hp : p < b.code.length := by simpa using hp
    have hp' : p < b'.code.length := length ▸ hp
    have mem := List.getElem_mem hp
    obtain ⟨i, hi, runs, rfl⟩ := (stackStep_eq_ok linked hp).mp step
    have handle : b'.code[p] = f b.code[p] := by simp [moved.code]
    have effect : m'.stackEffect k (i.mapLabels f) = m.stackEffect k i := by
      rw [Tables.stackEffect_mapLabels]
      exact tables.stackEffect_eq method (h.sound.resolves _ mem i hi)
    refine (stackStep_eq_ok linked' hp').mpr ⟨i.mapLabels f, ?_, ?_, ?_⟩
    · rw [handle, moved.get? _ mem, hi]
      rfl
    · rw [effect, length]
      exact ⟨runs.enough, runs.bounded, fun falls => runs.inside (by simpa using falls)⟩
    · rw [effect]
      refine congrArg (Prod.mk _) (Instruction.successors_mapLabels fun l hl => ?_).symm
      exact moved.idxOf_eq linked.nodup (linked.targets _ mem i hi l hl)

/-- A body that is left alone stays verified. -/
theorem Verified.keep (h : m.Verified k b r) (hb : m.body? k = some b)
    (hb' : m'.body? k = some b) (tables : m.toTables.Extends m'.toTables)
    (slots : ∀ id ∈ b.code, m'.arena.slot? id = m.arena.slot? id) : m'.Verified k b r :=
  h.relocate hb hb' tables (.of_slots h.owner? slots)

/-- An edit of another body leaves it alone. -/
theorem Verified.frame (h : m.Verified j b r) (hb : m.body? j = some b) (hj : j ≠ k)
    (frame : m.Frame k m') : m'.Verified j b r :=
  h.keep hb ((frame.body?_of_ne j hj).trans hb) (.of_declarations frame.declarations)
    fun id hid => frame.arena.slot?_of_owner? hj (h.owner? id hid)

end Module

end Graft
