import Graft.Edit.Basic
import Graft.Proofs.Labels
import Graft.Proofs.Slots

/-!
# Structural soundness

What holds a module together while it is being edited. Every body holds handles of its own, each
once, and refers to no others; what its instructions mention is in the tables, the locals and the
arguments; its exception ranges run forward. `Module.Linked` is the part about handles,
`Module.Sound` is all of it. The predicates look at the tables, the arena and the bodies themselves;
none of them is defined by what a check or an edit answers.
-/

namespace Graft

variable {μ β L L' : Type}

/-! ## Operands -/

/-- How many arguments a method takes, the receiver included; none if there is no such method. -/
def Tables.argumentCount (t : Tables μ β) (k : MethodId) : Nat :=
  (t.method? k).elim 0 Method.argumentCount

/-- The fields, methods and types that an instruction mentions are in the tables. -/
structure Instruction.Resolves (t : Tables μ β) (i : Instruction L) : Prop where
  field : ∀ id, i.field? = some id → id.index < t.fields.size
  method : ∀ id, i.method? = some id → id.index < t.methods.size
  type : ∀ s id, i.type? = some s → s.mentioned? = some id → id.index < t.types.size

/-- The locals and arguments that an instruction uses are among so many. -/
structure Instruction.Fits (arguments locals : Nat) (i : Instruction L) : Prop where
  loc : ∀ x, i.loc? = some x → x.toNat < locals
  arg : ∀ x, i.arg? = some x → x.toNat < arguments

namespace Instruction

/-- An instruction without fields, methods and types resolves in any tables. -/
theorem Resolves.of_none {t : Tables μ β} {i : Instruction L} (field : i.field? = none)
    (method : i.method? = none) (type : i.type? = none) : i.Resolves t where
  field id h := by rw [field] at h; cases h
  method id h := by rw [method] at h; cases h
  type s id h := by rw [type] at h; cases h

theorem Fits.of_none {arguments locals : Nat} {i : Instruction L} (loc : i.loc? = none)
    (arg : i.arg? = none) : i.Fits arguments locals where
  loc x h := by rw [loc] at h; cases h
  arg x h := by rw [arg] at h; cases h

theorem fits_loc {arguments locals : Nat} {access : SlotAccess} {x : UInt16} :
    (loc access x : Instruction L).Fits arguments locals ↔ x.toNat < locals :=
  ⟨fun h => h.loc x rfl, fun h => ⟨by rintro _ ⟨⟩; exact h, by rintro _ ⟨⟩⟩⟩

theorem fits_arg {arguments locals : Nat} {access : SlotAccess} {x : UInt16} :
    (arg access x : Instruction L).Fits arguments locals ↔ x.toNat < arguments :=
  ⟨fun h => h.arg x rfl, fun h => ⟨by rintro _ ⟨⟩, by rintro _ ⟨⟩; exact h⟩⟩

theorem resolves_field {t : Tables μ β} {access : FieldAccess} {id : FieldId} :
    (field access id : Instruction L).Resolves t ↔ id.index < t.fields.size :=
  ⟨fun h => h.field id rfl,
    fun h => ⟨by rintro _ ⟨⟩; exact h, by rintro _ ⟨⟩, by rintro _ _ ⟨⟩⟩⟩

theorem resolves_call {t : Tables μ β} {form : CallForm} {id : MethodId} :
    (call form id : Instruction L).Resolves t ↔ id.index < t.methods.size :=
  ⟨fun h => h.method id rfl,
    fun h => ⟨by rintro _ ⟨⟩, by rintro _ ⟨⟩; exact h, by rintro _ _ ⟨⟩⟩⟩

theorem resolves_typed {t : Tables μ β} {op : TypeOp} {s : TypeSig} :
    (typed op s : Instruction L).Resolves t ↔
      ∀ id, s.mentioned? = some id → id.index < t.types.size :=
  ⟨fun h id hid => h.type s id rfl hid,
    fun h => ⟨by rintro _ ⟨⟩, by rintro _ ⟨⟩, by rintro _ id ⟨⟩ hid; exact h id hid⟩⟩

/-- Larger tables resolve what smaller ones do. -/
theorem Resolves.mono {μ' β' : Type} {t : Tables μ β} {t' : Tables μ' β'} {i : Instruction L}
    (h : i.Resolves t) (fields : t.fields.size ≤ t'.fields.size)
    (methods : t.methods.size ≤ t'.methods.size) (types : t.types.size ≤ t'.types.size) :
    i.Resolves t' where
  field id hid := Nat.lt_of_lt_of_le (h.field id hid) fields
  method id hid := Nat.lt_of_lt_of_le (h.method id hid) methods
  type s id hs hid := Nat.lt_of_lt_of_le (h.type s id hs hid) types

@[simp] theorem resolves_mapLabels {t : Tables μ β} {f : L → L'} {i : Instruction L} :
    (i.mapLabels f).Resolves t ↔ i.Resolves t := by
  constructor
  · rintro ⟨hf, hm, ht⟩
    exact ⟨by simpa using hf, by simpa using hm, by simpa using ht⟩
  · rintro ⟨hf, hm, ht⟩
    exact ⟨by simpa using hf, by simpa using hm, by simpa using ht⟩

@[simp] theorem fits_mapLabels {arguments locals : Nat} {f : L → L'} {i : Instruction L} :
    (i.mapLabels f).Fits arguments locals ↔ i.Fits arguments locals := by
  constructor
  · rintro ⟨hl, ha⟩
    exact ⟨by simpa using hl, by simpa using ha⟩
  · rintro ⟨hl, ha⟩
    exact ⟨by simpa using hl, by simpa using ha⟩

end Instruction

/-! ## Bodies -/

namespace LiveBody

/-- A body holds each handle once and refers to no handles but its own. -/
structure Linked (a : Arena) (b : LiveBody) : Prop where
  nodup : b.code.Nodup
  targets : ∀ id ∈ b.code, ∀ i, a.get? id = some i → ∀ l ∈ i.targets, l ∈ b.code
  markers : ∀ r ∈ b.ranges, ∀ l ∈ r.markers, l ∈ b.code

/-- Besides, the operands of the body of `k` are in range and its exception ranges run forward. -/
structure Sound (t : Tables μ β) (k : MethodId) (a : Arena) (b : LiveBody) : Prop
    extends Linked a b where
  resolves : ∀ id ∈ b.code, ∀ i, a.get? id = some i → i.Resolves t
  fits : ∀ id ∈ b.code, ∀ i, a.get? id = some i → i.Fits (t.argumentCount k) b.locals.length
  ordered : ∀ r ∈ b.ranges, r.Ordered b.code.idxOf

theorem Linked.congr {a a' : Arena} {b : LiveBody} (h : Linked a b)
    (same : ∀ id ∈ b.code, a'.get? id = a.get? id) : Linked a' b where
  nodup := h.nodup
  targets id hid i hi := h.targets id hid i (same id hid ▸ hi)
  markers := h.markers

/-- Whether a body is sound depends on the sizes of the tables, on the arguments of its method and
on the instructions of its handles. -/
theorem Sound.congr {μ' β' : Type} {t : Tables μ β} {t' : Tables μ' β'} {k : MethodId}
    {a a' : Arena}
    {b : LiveBody} (h : Sound t k a b) (fields : t.fields.size ≤ t'.fields.size)
    (methods : t.methods.size ≤ t'.methods.size) (types : t.types.size ≤ t'.types.size)
    (arguments : t'.argumentCount k = t.argumentCount k)
    (same : ∀ id ∈ b.code, a'.get? id = a.get? id) : Sound t' k a' b where
  toLinked := h.toLinked.congr same
  resolves id hid i hi := (h.resolves id hid i (same id hid ▸ hi)).mono fields methods types
  fits id hid i hi := arguments ▸ h.fits id hid i (same id hid ▸ hi)
  ordered := h.ordered

/-- A body without instructions and exception ranges is linked. -/
theorem Linked.of_empty {a : Arena} {b : LiveBody} (code : b.code = []) (ranges : b.ranges = []) :
    Linked a b where
  nodup := by simp [code]
  targets := by simp [code]
  markers := by simp [ranges]

/-- And it is sound. -/
theorem Sound.of_empty {t : Tables μ β} {k : MethodId} {a : Arena} {b : LiveBody}
    (code : b.code = []) (ranges : b.ranges = []) : Sound t k a b where
  toLinked := .of_empty code ranges
  resolves := by simp [code]
  fits := by simp [code]
  ordered := by simp [ranges]

/-- In a linked body of instructions without operands other than labels, only the ranges matter. -/
theorem Sound.of_plain {t : Tables μ β} {k : MethodId} {a : Arena} {b : LiveBody} (h : Linked a b)
    (plain : ∀ id ∈ b.code, (a.get? id).all fun i =>
      i.field? = none ∧ i.method? = none ∧ i.type? = none ∧ i.loc? = none ∧ i.arg? = none)
    (ordered : ∀ r ∈ b.ranges, r.Ordered b.code.idxOf) : Sound t k a b := by
  have plain : ∀ id ∈ b.code, ∀ i, a.get? id = some i →
      i.field? = none ∧ i.method? = none ∧ i.type? = none ∧ i.loc? = none ∧ i.arg? = none := by
    intro id hid i hi
    simpa only [hi, Option.all_some, decide_eq_true_eq] using plain id hid
  refine ⟨h, fun id hid i hi => ?_, fun id hid i hi => ?_, ordered⟩
  · obtain ⟨field, method, type, -, -⟩ := plain id hid i hi
    exact .of_none field method type
  · obtain ⟨-, -, -, loc, arg⟩ := plain id hid i hi
    exact .of_none loc arg

end LiveBody

/-! ## Modules -/

namespace Module

/-- A handle is owned by the method whose body holds it, and by no other; bodies refer to their own
handles only. -/
structure Linked (m : Module) : Prop where
  owner_iff : ∀ id k, m.arena.owner? id = some k ↔ ∃ b, m.body? k = some b ∧ id ∈ b.code
  bodies : ∀ k b, m.body? k = some b → b.Linked m.arena

/-- The module is linked, and every body is sound. -/
structure Sound (m : Module) : Prop where
  owner_iff : ∀ id k, m.arena.owner? id = some k ↔ ∃ b, m.body? k = some b ∧ id ∈ b.code
  bodies : ∀ k b, m.body? k = some b → b.Sound m.toTables k m.arena

/-- Every method and every slot has a number of its own. -/
structure Numbered (m : Module) : Prop where
  methods : m.methods.size ≤ Arena.capacity
  slots : m.arena.size ≤ Arena.capacity

variable {m : Module} {k : MethodId} {b : LiveBody} {id : InsnId}

theorem Sound.linked (h : m.Sound) : m.Linked where
  owner_iff := h.owner_iff
  bodies k b hb := (h.bodies k b hb).toLinked

theorem Linked.owner?_eq (h : m.Linked) (hb : m.body? k = some b) (hid : id ∈ b.code) :
    m.arena.owner? id = some k :=
  (h.owner_iff id k).mpr ⟨b, hb, hid⟩

end Module

end Graft
