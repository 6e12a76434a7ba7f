import Graft.Proofs.Coherence
import Graft.Proofs.Preservation

/-!
# What edits leave alone

An edit of one body does not touch the slots that other bodies own, nor does it give slots to other
bodies. `Arena.Frame k` says so of the arenas before and after an edit of the body of `k`, and
`Module.Frame k` says besides that nothing in the tables changes but this body.
-/

namespace Graft

namespace Arena

variable {a a' a'' : Arena} {j k : MethodId} {id : InsnId} {ids : List InsnId}
  {code : List (Instruction InsnId)}

/-- Slots that are there and not owned by `k` stay as they are, and what gets an owner gets `k`. -/
structure Frame (k : MethodId) (a a' : Arena) : Prop where
  size_le : a.size ≤ a'.size
  slot?_eq : ∀ id, id.index < a.size → a.owner? id ≠ some k → a'.slot? id = a.slot? id
  owner?_of_ne : ∀ id j, j ≠ k → a'.owner? id = some j → a.owner? id = some j

namespace Frame

theorem refl (k : MethodId) (a : Arena) : Frame k a a := ⟨le_rfl, fun _ _ _ => rfl, fun _ _ _ => id⟩

theorem slot?_of_owner? (h : Frame k a a') (hj : j ≠ k) (ho : a.owner? id = some j) :
    a'.slot? id = a.slot? id := by
  refine h.slot?_eq id (index_lt_size_of_owner? ho) ?_
  rw [ho]
  exact fun same => hj (Option.some.inj same)

theorem get?_of_owner? (h : Frame k a a') (hj : j ≠ k) (ho : a.owner? id = some j) :
    a'.get? id = a.get? id :=
  get?_eq_of_slot? (h.slot?_of_owner? hj ho)

/-- The other methods own what they owned. -/
theorem owner?_iff (h : Frame k a a') (hj : j ≠ k) :
    a'.owner? id = some j ↔ a.owner? id = some j := by
  constructor
  · exact h.owner?_of_ne id j hj
  · intro ho
    rw [owner?_eq_of_slot? (h.slot?_of_owner? hj ho), ho]

theorem trans (h : Frame k a a') (h' : Frame k a' a'') : Frame k a a'' where
  size_le := h.size_le.trans h'.size_le
  slot?_eq id hid ho := by
    have same := h.slot?_eq id hid ho
    have ho' : a'.owner? id ≠ some k := by rwa [owner?_eq_of_slot? same]
    exact (h'.slot?_eq id (hid.trans_le h.size_le) ho').trans same
  owner?_of_ne id j hj ho := h.owner?_of_ne id j hj (h'.owner?_of_ne id j hj ho)

end Frame

/-! ## The steps of edits -/

theorem frame_append : Frame k a (a.append k code) where
  size_le := by simp
  slot?_eq id hid _ := slot?_append_of_lt hid
  owner?_of_ne id j hj ho := by
    by_cases hid : id.index < a.size
    · rwa [owner?_append_of_lt hid] at ho
    · have hid : a.size ≤ id.index := by omega
      have hlt := index_lt_size_of_owner? ho
      rw [size_append] at hlt
      rw [owner?_append_of_le hid hlt] at ho
      exact absurd (Option.some.inj ho).symm hj

theorem frame_releaseAll (owned : ∀ id ∈ ids, a.owner? id = some k) :
    Frame k a (a.releaseAll ids) where
  size_le := by simp
  slot?_eq id _ ho := by
    rw [slot?_releaseAll, if_neg fun hm => ho (owned id hm)]
  owner?_of_ne id j _ ho := by
    rw [owner?_releaseAll] at ho
    split at ho
    · cases ho
    · exact ho

/-- Instructions that are changed belong to `k` or are new. -/
theorem frame_modifyAll {f : Instruction InsnId → Instruction InsnId} (distinct : ids.Nodup)
    (owned : ∀ id ∈ ids, a.owner? id = some k) : Frame k a (a.modifyAll ids f) where
  size_le := by simp
  slot?_eq id _ ho := by
    rw [slot?_modifyAll distinct, if_neg fun hm => ho (owned id hm)]
  owner?_of_ne id j _ ho := by rwa [owner?_modifyAll] at ho

theorem frame_replace {old : InsnId} {i : Instruction InsnId} (distinct : ids.Nodup)
    (hold : a.owner? old = some k)
    (owned : ∀ id ∈ ids, (a.replace k old i ids).owner? id = some k) :
    Frame k a (a.replace k old i ids) := by
  refine (frame_append.trans (frame_releaseAll ?_)).trans (frame_modifyAll distinct ?_)
  · intro id hid
    rw [List.mem_singleton.mp hid]
    exact owner?_append_iff.mpr (.inl hold)
  · intro id hid
    have := owned id hid
    rwa [replace, owner?_modifyAll] at this

end Arena

/-! ## Declarations -/

/-- What a method is apart from its body. -/
def Method.head {β : Type} (d : Method β) : Method Empty := { d with body := none }

namespace Method

variable {μ β β' : Type} {d : Method β} {d' : Method β'}

theorem owner_of_head (h : d'.head = d.head) : d'.owner = d.owner :=
  congrArg (fun e : Method Empty => e.owner) h

theorem flags_of_head (h : d'.head = d.head) : d'.flags = d.flags :=
  congrArg (fun e : Method Empty => e.flags) h

theorem signature_of_head (h : d'.head = d.head) : d'.signature = d.signature :=
  congrArg (fun e : Method Empty => e.signature) h

theorem isStatic_of_head (h : d'.head = d.head) : d'.isStatic = d.isStatic :=
  congrArg (fun e : Method Empty => e.isStatic) h

end Method

/-- What the tables declare: everything in them but the bodies. -/
def Tables.declarations {μ β : Type} (t : Tables μ β) : Tables μ Empty where
  name := t.name
  types := t.types
  fields := t.fields
  methods := t.methods.map Method.head

/-- What the entries of the tables declare by themselves, without what is listed of types. -/
def Tables.header {μ β : Type} (t : Tables μ β) : Tables Unit Empty where
  name := t.name
  types := t.records
  fields := t.fields
  methods := t.methods.map Method.head

namespace Tables

section

variable {μ μ' β β' : Type} {t : Tables μ β} {t' : Tables μ' β'}

theorem records_eq_of_header (h : t'.header = t.header) : t'.records = t.records :=
  congrArg Tables.types h

theorem fields_eq_of_header (h : t'.header = t.header) : t'.fields = t.fields :=
  congrArg Tables.fields h

theorem heads_eq_of_header (h : t'.header = t.header) :
    t'.methods.map Method.head = t.methods.map Method.head :=
  congrArg Tables.methods h

theorem owners_eq_of_header (h : t'.header = t.header) :
    t'.methods.map Method.owner = t.methods.map Method.owner := by
  have owners := congrArg (Array.map fun d : Method Empty => d.owner) (heads_eq_of_header h)
  rwa [Array.map_map, Array.map_map] at owners

end

variable {μ β β' : Type} {t : Tables μ β} {t' : Tables μ β'} {k : MethodId}

theorem header_of_declarations (h : t'.declarations = t.declarations) : t'.header = t.header :=
  congrArg (fun d : Tables μ Empty => { d with types := d.records }) h

/-- What types list has to be added to the entries. -/
theorem declarations_of_header (types : t'.types = t.types) (h : t'.header = t.header) :
    t'.declarations = t.declarations := by
  have name : t'.name = t.name := congrArg Tables.name h
  rw [declarations, declarations, name, types, fields_eq_of_header h, heads_eq_of_header h]

/-- For coherent tables the entries say it all. -/
theorem Coherent.declarations_eq {t : Tables Members β} {t' : Tables Members β'} (ht : t.Coherent)
    (ht' : t'.Coherent) (h : t'.header = t.header) : t'.declarations = t.declarations :=
  declarations_of_header (ht.types_eq ht' (records_eq_of_header h) (fields_eq_of_header h)
    (owners_eq_of_header h)) h

theorem Coherent.of_declarations {t : Tables Members β} {t' : Tables Members β'} (ht : t.Coherent)
    (h : t'.declarations = t.declarations) : t'.Coherent :=
  ht.of_eq (congrArg Tables.types h) (congrArg Tables.fields h)
    (owners_eq_of_header (header_of_declarations h))

theorem types_eq_of_declarations (h : t'.declarations = t.declarations) : t'.types = t.types :=
  congrArg Tables.types h

theorem fields_eq_of_declarations (h : t'.declarations = t.declarations) : t'.fields = t.fields :=
  congrArg Tables.fields h

theorem head_of_declarations (h : t'.declarations = t.declarations) (k : MethodId) :
    (t'.method? k).map Method.head = (t.method? k).map Method.head := by
  simpa [declarations, method?] using congrArg (fun t => t.method? k) h

theorem argumentCount_declarations : t.declarations.argumentCount k = t.argumentCount k := by
  simp only [argumentCount, method?, declarations, Array.getElem?_map]
  cases t.methods[k.index]? <;> rfl

theorem argumentCount_of_declarations (h : t'.declarations = t.declarations) :
    t'.argumentCount k = t.argumentCount k := by
  rw [← argumentCount_declarations, h, argumentCount_declarations]

/-- Of stack effects, only those of calls and returns depend on the tables. -/
theorem stackEffect_congr {μ' L : Type} {t' : Tables μ' β'} {i : Instruction L} {k' : MethodId}
    (calls : ∀ form id, i = .call form id → t'.callEffect form id = t.callEffect form id)
    (value : t'.givesValue k' = t.givesValue k) : t'.stackEffect k' i = t.stackEffect k i := by
  cases i with
  | call form id => exact calls form id rfl
  | ret => simp only [stackEffect, value]
  | arg access index => cases access <;> rfl
  | loc access index => cases access <;> rfl
  | field access id => cases access <;> rfl
  | typed op s => cases op <;> rfl
  | _ => rfl

end Tables

/-! ## Modules -/

namespace Module

variable {m m' m'' : Module} {j k : MethodId} {b b' : LiveBody} {a : Arena}

theorem declarations_modifyMethod {f : Method LiveBody → Method LiveBody}
    (h : ∀ d, (f d).head = d.head) :
    (m.modifyMethod k f).declarations = m.declarations := by
  have same : (m.methods.modify k.index f).map Method.head = m.methods.map Method.head :=
    map_modify_of_eq h
  unfold Tables.declarations modifyMethod
  simp only [same]

theorem declarations_withBody : (m.withBody k b a).declarations = m.declarations :=
  declarations_modifyMethod fun _ => rfl

theorem declarations_rebuilt (hb : m.body? k = some b') :
    (m.rebuilt k b a).declarations = m.declarations := by
  rw [rebuilt_eq hb]
  exact declarations_withBody

/-- The body of `k` and its slots may be others; all else is as it was. -/
structure Frame (k : MethodId) (m m' : Module) : Prop where
  declarations : m'.declarations = m.declarations
  methods : ∀ i, i ≠ k.index → m'.methods[i]? = m.methods[i]?
  isSome_body? : (m'.body? k).isSome = (m.body? k).isSome
  arena : Arena.Frame k m.arena m'.arena

namespace Frame

theorem refl (k : MethodId) (m : Module) : Frame k m m :=
  ⟨rfl, fun _ _ => rfl, rfl, .refl k m.arena⟩

theorem body?_of_ne (h : Frame k m m') (j : MethodId) (hj : j ≠ k) : m'.body? j = m.body? j := by
  have entry : m'.method? j = m.method? j := h.methods j.index (MethodId.index_inj.not.mpr hj)
  rw [body?, entry, body?]

theorem trans (h : Frame k m m') (h' : Frame k m' m'') : Frame k m m'' where
  declarations := h'.declarations.trans h.declarations
  methods i hi := (h'.methods i hi).trans (h.methods i hi)
  isSome_body? := h'.isSome_body?.trans h.isSome_body?
  arena := h.arena.trans h'.arena

theorem touch (h : Frame k m m') : Frame k m (m'.touch k) := ⟨h.1, h.2, h.3, h.4⟩

theorem of_touch (h : Frame k (m.touch k) m') : Frame k m m' := ⟨h.1, h.2, h.3, h.4⟩

theorem withBody (hb : m.body? k = some b') (h : Arena.Frame k m.arena a) :
    Frame k m (m.withBody k b a) where
  declarations := declarations_withBody
  methods i hi := by
    rw [Module.withBody, setBody, modifyMethod, Array.getElem?_modify, if_neg hi.symm]
  isSome_body? := by rw [body?_withBody_self hb, hb]; rfl
  arena := h

theorem rebuilt (hb : m.body? k = some b') (h : Arena.Frame k m.arena a) :
    Frame k m (m.rebuilt k b a) := by
  rw [rebuilt_eq hb]
  exact of_touch (withBody hb h)

/-- No method gets a body or loses it. -/
theorem isSome_body?_eq (h : Frame k m m') (j : MethodId) :
    (m'.body? j).isSome = (m.body? j).isSome := by
  by_cases hj : j = k
  · rw [hj, h.isSome_body?]
  · rw [h.body?_of_ne j hj]

end Frame

/-! ## Linked and sound modules -/

/-- A body of a linked module, with what it owns. -/
theorem Linked.tied (h : m.Linked) (hb : m.body? k = some b) : b.Tied k m.arena where
  toLinked := h.bodies k b hb
  owner_iff id := by
    rw [h.owner_iff, hb]
    simp

/-- A linked module stays linked if a body is put in that is, with the slots it owns. -/
theorem Linked.withBody (h : m.Linked) (hb : m.body? k = some b')
    (frame : Arena.Frame k m.arena a) (new : b.Tied k a) : (m.withBody k b a).Linked := by
  constructor
  · intro id j
    by_cases hj : j = k
    · subst hj
      rw [body?_withBody_self hb]
      simpa using new.owner_iff id
    · rw [body?_withBody_of_ne hj, arena_withBody, frame.owner?_iff hj]
      exact h.owner_iff id j
  · intro j c hc
    by_cases hj : j = k
    · subst hj
      rw [body?_withBody_self hb] at hc
      cases hc
      exact new.toLinked
    · rw [body?_withBody_of_ne hj] at hc
      refine (h.bodies j c hc).congr fun id hid => ?_
      exact frame.get?_of_owner? hj ((h.owner_iff id j).mpr ⟨c, hc, hid⟩)

/-- A sound module stays sound if a body is put in that is sound with the slots it owns. -/
theorem Sound.withBody (h : m.Sound) (hb : m.body? k = some b') (frame : Arena.Frame k m.arena a)
    (new : b.Owned m.toTables k a) : (m.withBody k b a).Sound := by
  have same : (m.withBody k b a).declarations = m.declarations := declarations_withBody
  have fields : m.fields.size ≤ (m.withBody k b a).fields.size := le_rfl
  have methods : m.methods.size ≤ (m.withBody k b a).methods.size := size_methods_withBody.ge
  have types : m.types.size ≤ (m.withBody k b a).types.size := le_rfl
  refine ⟨(h.linked.withBody hb frame new.tied).owner_iff, fun j c hc => ?_⟩
  by_cases hj : j = k
  · subst hj
    rw [body?_withBody_self hb] at hc
    cases hc
    exact new.toSound.congr fields methods types (Tables.argumentCount_of_declarations same)
      fun _ _ => rfl
  · rw [body?_withBody_of_ne hj] at hc
    refine (h.bodies j c hc).congr fields methods types
      (Tables.argumentCount_of_declarations same) fun id hid => ?_
    exact frame.get?_of_owner? hj ((h.owner_iff id j).mpr ⟨c, hc, hid⟩)

theorem Linked.touch (h : m.Linked) : (m.touch k).Linked := ⟨h.owner_iff, h.bodies⟩

theorem Sound.touch (h : m.Sound) : (m.touch k).Sound := ⟨h.owner_iff, h.bodies⟩

theorem Sound.rebuilt (h : m.Sound) (hb : m.body? k = some b') (frame : Arena.Frame k m.arena a)
    (new : b.Owned m.toTables k a) : (m.rebuilt k b a).Sound := by
  rw [rebuilt_eq hb]
  exact (h.touch (k := k)).withBody hb frame (new.withMaxStack _)

theorem Linked.rebuilt (h : m.Linked) (hb : m.body? k = some b') (frame : Arena.Frame k m.arena a)
    (new : b.Tied k a) : (m.rebuilt k b a).Linked := by
  rw [rebuilt_eq hb]
  exact (h.touch (k := k)).withBody hb frame (new.withMaxStack _)

/-- A body of a sound module, with what it owns. -/
theorem Sound.owned (h : m.Sound) (hb : m.body? k = some b) :
    b.Owned m.toTables k m.arena where
  toSound := h.bodies k b hb
  owner_iff id := by
    rw [h.owner_iff, hb]
    simp

end Module

end Graft
