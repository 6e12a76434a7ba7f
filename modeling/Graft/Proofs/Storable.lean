import Graft.Proofs.Compaction
import Graft.Proofs.Declaring
import Graft.Proofs.Likeness
import Graft.Proofs.Storing
import Graft.Proofs.WellFormed

/-!
# Modules that can be stored and loaded again

A module is storable if its bodies are linked and its file would be accepted by loading. Edits keep
modules storable as long as what they put in mentions only what is there. Compacting a storable
module cannot fail, and what it gives depends on the file alone.
-/

namespace Graft

/-! ## Changes of files -/

/-- One entry is changed, and then all are mapped. -/
theorem map_modify {α β : Type} {xs : Array α} {n : Nat} {f : α → α} {g : α → β} {h : β → β}
    (same : ∀ x, g (f x) = h (g x)) : (xs.modify n f).map g = (xs.map g).modify n h := by
  refine Array.ext_getElem? fun i => ?_
  rw [Array.getElem?_map, Array.getElem?_modify, Array.getElem?_modify, Array.getElem?_map]
  split
  · rw [Option.map_map, Option.map_map]
    exact congrArg (fun f => xs[i]?.map f) (funext same)
  · rfl

namespace FileBody

variable {μ μ' β β' : Type} {t : Tables μ β} {t' : Tables μ' β'} {c : FileBody}

/-- Larger tables know what smaller ones do. -/
theorem Known.mono (h : c.Known t) (fields : t.fields.size ≤ t'.fields.size)
    (methods : t.methods.size ≤ t'.methods.size) (types : t.types.size ≤ t'.types.size) :
    c.Known t' where
  resolves i hi := (h.resolves i hi).mono fields methods types
  caught r hr s hs id hid := (h.caught r hr s hs id hid).trans_le types
  locals s hs id hid := (h.locals s hs id hid).trans_le types
  count := h.count

/-- A body without instructions and ranges mentions nothing but the types of its locals. -/
theorem Known.of_empty (code : c.code = []) (ranges : c.ranges = [])
    (locals : ∀ s ∈ c.locals, t.Knows s) (count : c.locals.length ≤ maxLocals) : c.Known t :=
  ⟨by simp [code], by simp [ranges], locals, count⟩

end FileBody

namespace Method.Declarable

variable {μ μ' β β' γ γ' : Type} {t : Tables μ β} {t' : Tables μ' β'} {d : Method γ}
  {d' : Method γ'}

theorem mono (h : d.Declarable t) (types : t.types.size ≤ t'.types.size) : d.Declarable t' where
  owner := h.owner.trans_le types
  result := h.result.mono types
  params p hp := (h.params p hp).mono types
  name := h.name

/-- Bodies have nothing to do with it. -/
theorem of_head (h : d.Declarable t) (same : d'.head = d.head) : d'.Declarable t := by
  have name : d'.name = d.name := congrArg Method.name same
  refine ⟨?_, ?_, ?_, ?_⟩
  · rw [Method.owner_of_head same]
    exact h.owner
  · rw [Method.signature_of_head same]
    exact h.result
  · rw [Method.signature_of_head same]
    exact h.params
  · rw [name]
    exact h.name

end Method.Declarable

namespace ModuleFile

variable {f : ModuleFile} {k : MethodId} {c : FileBody} {d : Method FileBody}

/-- The file with one method changed. -/
def modifyMethod (f : ModuleFile) (k : MethodId) (g : Method FileBody → Method FileBody) :
    ModuleFile :=
  { f with methods := f.methods.modify k.index g }

/-- The file with another body of a method. -/
def setBody (f : ModuleFile) (k : MethodId) (c : FileBody) : ModuleFile :=
  f.modifyMethod k ({ · with body := some c })

/-- The file with one more method. -/
def addMethod (f : ModuleFile) (d : Method FileBody) : ModuleFile :=
  { f with methods := f.methods.push d }

theorem check_modifyMethod {g : Method FileBody → Method FileBody} (h : f.check = .ok ())
    (head : ∀ d, d.Declarable f.toTables → (g d).Declarable f.toTables)
    (body : ∀ d c, (g d).body = some c →
      d.body = some c ∨ c.Known f.toTables ∧ c.Closed) :
    (f.modifyMethod k g).check = .ok () := by
  obtain ⟨lawful, methods⟩ := check_eq_ok.mp h
  have size : f.methods.size ≤ (f.modifyMethod k g).methods.size := Array.size_modify.ge
  refine check_eq_ok.mpr ⟨lawful.congr rfl rfl, fun e he => ?_⟩
  have accepted : e.Declarable f.toTables ∧
      ∀ c, e.body = some c → c.Known f.toTables ∧ c.Closed := by
    refine forall_mem_modify methods (fun d hd => ?_) e he
    exact ⟨head d hd.1, fun c hc => (body d c hc).elim (hd.2 c) id⟩
  exact ⟨accepted.1.mono le_rfl, fun c hc =>
    ⟨(accepted.2 c hc).1.mono le_rfl size le_rfl, (accepted.2 c hc).2⟩⟩

theorem check_setBody (h : f.check = .ok ()) (known : c.Known f.toTables) (closed : c.Closed) :
    (f.setBody k c).check = .ok () := by
  refine check_modifyMethod h (fun d hd => ⟨hd.owner, hd.result, hd.params, hd.name⟩) ?_
  rintro d _ ⟨⟩
  exact .inr ⟨known, closed⟩

theorem check_addMethod (h : f.check = .ok ()) (head : d.Declarable f.toTables)
    (body : ∀ c, d.body = some c → c.Known f.toTables ∧ c.Closed) :
    (f.addMethod d).check = .ok () := by
  obtain ⟨lawful, methods⟩ := check_eq_ok.mp h
  have size : f.methods.size ≤ (f.addMethod d).methods.size := by simp [addMethod]
  refine check_eq_ok.mpr ⟨lawful.congr rfl rfl, fun e he => ?_⟩
  have accepted : e.Declarable f.toTables ∧
      ∀ c, e.body = some c → c.Known f.toTables ∧ c.Closed := by
    rcases Array.mem_push.mp he with he | rfl
    · exact methods e he
    · exact ⟨head, body⟩
  exact ⟨accepted.1.mono le_rfl, fun c hc =>
    ⟨(accepted.2 c hc).1.mono le_rfl size le_rfl, (accepted.2 c hc).2⟩⟩

end ModuleFile

/-! ## Storable modules -/

theorem Method.view_congr {a a' : Arena} {d : Method LiveBody}
    (same : ∀ b, d.body = some b → b.view a' = b.view a) : d.view a' = d.view a := by
  obtain ⟨owner, name, flags, signature, body⟩ := d
  cases body with
  | none => rfl
  | some b => exact congrArg (fun c => Method.mk owner name flags signature (some c)) (same b rfl)

namespace Module

variable {m m' : Module} {j k : MethodId} {b b' : LiveBody} {a : Arena} {d : Method LiveBody}
  {id : InsnId} {i : Nat}

/-- Handles and labels correspond, types list what names them, locals are numbered, and loading
would accept the file of the module. -/
structure Storable (m : Module) : Prop where
  linked : m.Linked
  coherent : m.Coherent
  indexed : ∀ d ∈ m.methods, ∀ b, d.body = some b → b.Indexed
  /-- There may be more methods than numbers. -/
  blank : ∀ (i : Nat) d, m.methods[i]? = some d → Arena.capacity ≤ i → d.Blank
  accepted : m.view.check = .ok ()
  room : m.arena.size ≤ Arena.capacity

/-- What can be put in the place of a body: it is linked, owns its slots and leaves those of other
methods alone, and it mentions only what is there. -/
structure Replacement (m : Module) (k : MethodId) (b : LiveBody) (a : Arena) : Prop where
  body : ∃ b', m.body? k = some b'
  frame : Arena.Frame k m.arena a
  tied : b.Tied k a
  indexed : b.Indexed
  known : (b.view a).Known m.toTables
  room : a.size ≤ Arena.capacity

/-- The entries of a file declare what those of the module do. -/
theorem header_view : m.view.header = m.header := by
  have heads : (m.methods.map (Method.view m.arena)).map Method.head =
      m.methods.map Method.head := by
    rw [Array.map_map]
    rfl
  have records : m.view.records = m.records := Tables.records_of_unit m.view.toTables
  rw [Tables.header, records]
  exact congrArg (fun methods => { m.header with methods }) heads

theorem Linked.readable (h : m.Linked) (hb : m.body? k = some b) : b.Readable m.arena :=
  (h.tied hb).readable

theorem view_addMethod : (m.addMethod d).view = m.view.addMethod (d.view m.arena) := by
  have records : (m.addMethod d).records = m.records := Tables.records_enterMethod
  have methods : (m.addMethod d).methods.map (Method.view m.arena) =
      (m.methods.map (Method.view m.arena)).push (d.view m.arena) := Array.map_push
  exact congr (congrArg (fun types methods => { m.view with types, methods }) records) methods

theorem view_setFlags {g : MethodFlags → MethodFlags} :
    (m.modifyMethod k fun d => { d with flags := g d.flags }).view =
      m.view.modifyMethod k fun d => { d with flags := g d.flags } := by
  have methods : (m.methods.modify k.index fun d => { d with flags := g d.flags }).map
      (Method.view m.arena) = (m.methods.map (Method.view m.arena)).modify k.index
        fun d => { d with flags := g d.flags } := map_modify fun _ => rfl
  exact congrArg (fun methods => { m.view with methods }) methods

theorem body?_ofIndex (hi : i < Arena.capacity) (hd : m.methods[i]? = some d) :
    m.body? (.ofIndex i) = d.body := by
  refine body?_of_method? ?_
  rw [Tables.method?, MethodId.index_ofIndex hi, hd]

namespace Storable

/-- A body is that of a numbered method, or there is nothing in it. -/
theorem body_cases (h : m.Storable) (hd : m.methods[i]? = some d) (hb : d.body = some b) :
    (i < Arena.capacity ∧ m.body? (.ofIndex i) = some b) ∨ (b.code = [] ∧ b.ranges = []) := by
  by_cases hi : i < Arena.capacity
  · exact .inl ⟨hi, (body?_ofIndex hi hd).trans hb⟩
  · exact .inr (h.blank i d hd (Nat.le_of_not_lt hi) b hb)

theorem owner?_of_mem (h : m.Storable) (hd : m.methods[i]? = some d) (hb : d.body = some b)
    (hid : id ∈ b.code) : i < Arena.capacity ∧ m.arena.owner? id = some (.ofIndex i) := by
  obtain ⟨hi, hb'⟩ | ⟨code, -⟩ := h.body_cases hd hb
  · exact ⟨hi, h.linked.owner?_eq hb' hid⟩
  · rw [code] at hid
    cases hid

theorem readable (h : m.Storable) : m.Readable := by
  intro d hd b hb
  obtain ⟨i, hi⟩ := Array.mem_iff_getElem?.mp hd
  obtain ⟨-, hb'⟩ | ⟨code, ranges⟩ := h.body_cases hi hb
  · exact h.linked.readable hb'
  · exact .of_empty code ranges

/-- What counts as touched does not matter. -/
theorem withTouched (h : m.Storable) (ks : List MethodId) : ({ m with touched := ks }).Storable :=
  ⟨⟨h.linked.owner_iff, h.linked.bodies⟩, h.coherent, h.indexed, h.blank, h.accepted, h.room⟩

theorem indexed_body (h : m.Storable) (hb : m.body? k = some b) : b.Indexed := by
  obtain ⟨d, hd, hb⟩ := exists_method? hb
  exact h.indexed d (Array.mem_of_getElem? hd) b hb

theorem touch (h : m.Storable) : (m.touch k).Storable := h.withTouched _

theorem clearTouched (h : m.Storable) : m.clearTouched.Storable := h.withTouched _

/-! ## Bodies -/

/-- An edit of one body changes this body of the file only. -/
theorem view_withBody (h : m.Storable) (frame : Arena.Frame k m.arena a) :
    (m.withBody k b a).view = m.view.setBody k (b.view a) := by
  have methods : (m.methods.modify k.index ({ · with body := some b })).map (Method.view a) =
      (m.methods.map (Method.view m.arena)).modify k.index
        ({ · with body := some (b.view a) }) := by
    refine Array.ext_getElem? fun i => ?_
    rw [Array.getElem?_map, Array.getElem?_modify, Array.getElem?_modify, Array.getElem?_map]
    split
    · rw [Option.map_map, Option.map_map]
      rfl
    · rename_i hi
      cases hd : m.methods[i]? with
      | none => rfl
      | some d =>
        refine congrArg some (Method.view_congr fun c hc => LiveBody.view_congr fun id hid => ?_)
        obtain ⟨small, owner⟩ := h.owner?_of_mem hd hc hid
        refine frame.get?_of_owner? (fun same => hi ?_) owner
        rw [← same, MethodId.index_ofIndex small]
  exact congrArg (fun methods => { m.view with methods }) methods

theorem withBody (h : m.Storable) (new : m.Replacement k b a) : (m.withBody k b a).Storable where
  linked := by
    obtain ⟨b', hb⟩ := new.body
    exact h.linked.withBody hb new.frame new.tied
  coherent := h.coherent.of_declarations declarations_withBody
  indexed := by
    refine forall_mem_modify (f := ({ · with body := some b })) h.indexed fun d _ c hc => ?_
    cases hc
    exact new.indexed
  blank i d hd hi := by
    rw [Module.withBody, setBody, modifyMethod, Array.getElem?_modify, if_neg] at hd
    · exact h.blank i d hd hi
    · have : k.index < Arena.capacity := k.number.toNat_lt
      omega
  accepted := by
    rw [h.view_withBody new.frame]
    refine ModuleFile.check_setBody h.accepted (new.known.mono le_rfl ?_ ?_)
      new.tied.readable.closed
    · exact Array.size_map.ge
    · exact Array.size_map.ge
  room := new.room

/-- What a method mentions is there. -/
theorem accepts (h : m.Storable) (hd : m.method? k = some d) :
    d.Declarable m.toTables ∧
      ∀ b, d.body = some b → (b.view m.arena).Known m.toTables := by
  have member : d.view m.arena ∈ m.view.methods :=
    Array.mem_map.mpr ⟨d, Array.mem_of_getElem? hd, rfl⟩
  obtain ⟨head, body⟩ := (ModuleFile.check_eq_ok.mp h.accepted).2 _ member
  have size : m.view.types.size = m.types.size := Tables.size_records
  refine ⟨(head.mono size.le : Method.Declarable m.toTables (d.view m.arena)).of_head rfl,
    fun b hb => ?_⟩
  have known := (body (b.view m.arena) (by rw [Method.view, hb]; rfl)).1
  exact known.mono le_rfl Array.size_map.le size.le

theorem known (h : m.Storable) (hb : m.body? k = some b) : (b.view m.arena).Known m.toTables := by
  obtain ⟨d, hd, body⟩ := exists_method? hb
  exact (h.accepts hd).2 b body

/-- A body can get other locals. -/
theorem withLocals (h : m.Storable) (hb : m.body? k = some b) (code : b'.code = b.code)
    (ranges : b'.ranges = b.ranges) (furnished : b'.Furnished m.toTables) :
    m.Replacement k b' m.arena where
  body := ⟨b, hb⟩
  frame := .refl k m.arena
  tied := (h.linked.tied hb).of_code_eq code ranges
  indexed := furnished.indexed
  known := by
    have same : b'.view m.arena = { b.view m.arena with
        maxStack := b'.maxStack, initLocals := b'.initLocals
        locals := b'.locals.map LocalSlot.type } := by
      have place : b'.position = b.position := funext fun id => by
        rw [LiveBody.position, LiveBody.position, code]
      have read : LiveBody.viewInstruction m.arena b' = LiveBody.viewInstruction m.arena b :=
        funext fun id => by rw [LiveBody.viewInstruction, LiveBody.viewInstruction, place]
      rw [LiveBody.view, LiveBody.view, read, place, code, ranges]
    rw [same]
    exact ⟨(h.known hb).resolves, (h.known hb).caught, furnished.knows,
      (List.length_map _).trans_le furnished.count⟩
  room := h.room

/-- A body can be thrown away for one without instructions. -/
theorem reset (h : m.Storable) (hb : m.body? k = some b) {fresh : LiveBody}
    (code : fresh.code = []) (ranges : fresh.ranges = []) (furnished : fresh.Furnished m.toTables) :
    m.Replacement k fresh (m.arena.releaseAll b.code) where
  body := ⟨b, hb⟩
  frame := Arena.frame_releaseAll fun _ => h.linked.owner?_eq hb
  tied := (h.linked.tied hb).reset code ranges
  indexed := furnished.indexed
  known := .of_empty (by simp [LiveBody.view, code]) (by simp [LiveBody.view, ranges])
    furnished.knows ((List.length_map _).trans_le furnished.count)
  room := by
    rw [Arena.size_releaseAll]
    exact h.room

/-- The locals of a body are in order. -/
theorem furnished (h : m.Storable) (hb : m.body? k = some b) : b.Furnished m.toTables where
  locals := List.forall_mem_map.mp (h.known hb).locals
  count := (List.length_map _).symm.trans_le (h.known hb).count
  indexed := h.indexed_body hb

/-! ## Methods -/

/-- A method is declared that is still to be filled in, or has nothing to fill in. -/
theorem addMethod (h : m.Storable) (head : d.Declarable m.toTables)
    (fresh : ∀ b, d.body = some b → b = Body.empty) : (m.addMethod d).Storable where
  linked := h.linked.addMethod fun b hb => by
    rw [fresh b hb]
    exact ⟨rfl, rfl⟩
  coherent := h.coherent.enterMethod head.owner
  indexed e he b hb := by
    rcases Array.mem_push.mp he with he | rfl
    · exact h.indexed e he b hb
    · rw [fresh b hb]
      exact LiveBody.indexed_of_nil rfl
  blank i e he hi := by
    rw [Module.addMethod, Tables.methods_enterMethod, Array.getElem?_push] at he
    split at he
    · obtain rfl := Option.some.inj he
      intro b hb
      rw [fresh b hb]
      exact ⟨rfl, rfl⟩
    · exact h.blank i e he hi
  accepted := by
    rw [view_addMethod]
    have size : m.view.types.size = m.types.size := Tables.size_records
    refine ModuleFile.check_addMethod h.accepted ((head.mono size.ge).of_head rfl) fun c hc => ?_
    obtain ⟨b, hb, rfl⟩ := Option.map_eq_some_iff.mp hc
    rw [fresh b hb]
    exact ⟨.of_empty rfl rfl (fun s hs => absurd hs List.not_mem_nil) (Nat.zero_le _),
      (LiveBody.Readable.of_empty rfl rfl).closed⟩
  room := h.room

/-- What a method is besides its body changes, but for its name and its types. -/
theorem setFlags (h : m.Storable) {g : MethodFlags → MethodFlags} :
    (m.modifyMethod k fun d => { d with flags := g d.flags }).Storable where
  linked := by
    have body := body?_modifyMethod (m := m) (k := k)
      (f := fun d => { d with flags := g d.flags }) fun _ => rfl
    exact ⟨fun id j => body j ▸ h.linked.owner_iff id j,
      fun j b hb => h.linked.bodies j b (body j ▸ hb)⟩
  coherent := by
    have owners : (m.methods.modify k.index fun d => { d with flags := g d.flags }).map
        Method.owner = m.methods.map Method.owner := map_modify_of_eq fun _ => rfl
    exact h.coherent.of_eq rfl rfl owners
  indexed := forall_mem_modify (f := fun d : Method LiveBody => { d with flags := g d.flags })
    h.indexed fun _ indexed => indexed
  blank i e he hi := by
    rw [modifyMethod, Array.getElem?_modify] at he
    split at he
    · obtain ⟨d, hd, rfl⟩ := Option.map_eq_some_iff.mp he
      exact h.blank i d hd hi
    · exact h.blank i e he hi
  accepted := by
    rw [view_setFlags]
    exact ModuleFile.check_modifyMethod h.accepted
      (fun d hd => ⟨hd.owner, hd.result, hd.params, hd.name⟩) fun d c hc => .inl hc
  room := h.room

end Storable

end Module

/-! ## Loading and compaction -/

namespace Placement

variable {f : ModuleFile}

/-- A file that was accepted, and whose instructions have methods with numbers, gives a storable
module. -/
theorem storable_build (h : f.check = .ok ()) (addressed : Addressed f)
    (room : f.build.arena.size ≤ Arena.capacity) : f.build.Storable where
  linked := linked_of_addressed h room addressed
  coherent := f.coherent_build h
  indexed d hd b hb := by
    obtain ⟨i, hi⟩ := Array.mem_iff_getElem?.mp hd
    rw [(placed_build f).method] at hi
    obtain ⟨e, -, rfl⟩ := Option.map_eq_some_iff.mp hi
    obtain ⟨c, -, rfl⟩ := Option.map_eq_some_iff.mp hb
    exact FileBody.indexed_place
  blank i d hd hi b hb := by
    rw [(placed_build f).method, Array.getElem?_toList] at hd
    obtain ⟨e, he, rfl⟩ := Option.map_eq_some_iff.mp hd
    obtain ⟨c, hc, rfl⟩ := Option.map_eq_some_iff.mp hb
    have code : c.code = [] := by
      by_contra filled
      exact absurd (addressed i e c he hc filled) (Nat.not_lt.mpr hi)
    have closed := (ModuleFile.check_eq_ok.mp h).2 e (Array.mem_of_getElem? he) |>.2 c hc |>.2
    have ranges : c.ranges = [] := by
      refine List.eq_nil_iff_forall_not_mem.mpr fun r hr => ?_
      have inside := closed.markers r hr r.tryStart r.tryStart_mem_markers
      simp [code] at inside
    exact ⟨by simp [FileBody.place, code], by simp [FileBody.place, ranges]⟩
  accepted := by
    rw [view_build h room]
    exact h
  room := room

end Placement

namespace Module

variable {m : Module}

/-- The handles of all bodies. -/
def handles (m : Module) : List InsnId := m.methods.toList.flatMap fun d => d.body.elim [] Body.code

theorem length_handles : m.handles.length = m.instructionCount := by
  rw [handles, instructionCount, slotCount]
  induction m.methods.toList with
  | nil => rfl
  | cons d ds ih =>
    rw [List.flatMap_cons, List.length_append, ih, List.map_cons, List.foldr_cons,
      Method.instructionCount]
    cases d.body <;> rfl

theorem size_build_view : m.view.build.arena.size = m.instructionCount := by
  have counts : m.view.methods.toList.map Method.instructionCount =
      m.methods.toList.map Method.instructionCount := by
    rw [view, Array.toList_map, List.map_map]
    refine List.map_congr_left fun d _ => ?_
    rw [Function.comp, Method.instructionCount, Method.instructionCount, Method.view]
    cases d.body <;> simp
  rw [(Placement.placed_build m.view).size, slotCount, counts]
  rfl

/-- Every body holds each of its handles once, and its method, which has a number, owns them. -/
def Held (m : Module) : Prop :=
  ∀ (i : Nat) d b, m.methods[i]? = some d → d.body = some b →
    b.code.Nodup ∧ ∀ id ∈ b.code, i < Arena.capacity ∧ m.arena.owner? id = some (.ofIndex i)

namespace Held

variable (h : m.Held)
include h

/-- No handle is in two bodies. -/
theorem nodup_handles : m.handles.Nodup := by
  refine List.nodup_flatMap.mpr ⟨fun d hd => ?_, ?_⟩
  · obtain ⟨i, hi⟩ := Array.mem_iff_getElem?.mp (Array.mem_toList_iff.mp hd)
    cases hb : d.body with
    | none => exact List.nodup_nil
    | some b => exact (h i d b hi hb).1
  · -- a handle in the bodies of two methods would have two owners
    refine List.pairwise_iff_getElem.mpr fun i j hi hj lt id hid hid' => ?_
    have owner : ∀ n (hn : n < m.methods.toList.length),
        id ∈ m.methods.toList[n].body.elim [] Body.code →
          n < Arena.capacity ∧ m.arena.owner? id = some (.ofIndex n) := by
      intro n hn hid
      have hd : m.methods[n]? = some m.methods.toList[n] := by
        rw [← Array.getElem?_toList, List.getElem?_eq_getElem hn]
      cases hb : m.methods.toList[n].body with
      | none =>
        rw [hb] at hid
        cases hid
      | some b =>
        rw [hb] at hid
        exact (h n _ b hd hb).2 id hid
    obtain ⟨small, first⟩ := owner i hi hid
    obtain ⟨small', second⟩ := owner j hj hid'
    have same := congrArg MethodId.index (Option.some.inj (first.symm.trans second))
    rw [MethodId.index_ofIndex small, MethodId.index_ofIndex small'] at same
    omega

/-- There are at least as many slots as instructions in bodies. -/
theorem instructionCount_le : m.instructionCount ≤ m.arena.size := by
  -- the handles are distinct numbers below the size
  rw [← length_handles, ← List.length_map InsnId.index]
  have distinct : (m.handles.map InsnId.index).Nodup :=
    h.nodup_handles.map fun _ _ => InsnId.index_inj.mp
  have inside : m.handles.map InsnId.index ⊆ List.range m.arena.size := by
    intro n hn
    obtain ⟨id, hid, rfl⟩ := List.mem_map.mp hn
    obtain ⟨d, hd, hid⟩ := List.mem_flatMap.mp hid
    obtain ⟨i, hi⟩ := Array.mem_iff_getElem?.mp (Array.mem_toList_iff.mp hd)
    cases hb : d.body with
    | none => simp [hb] at hid
    | some b =>
      obtain ⟨-, owner⟩ := (h i d b hi hb).2 id (by simpa [hb] using hid)
      exact List.mem_range.mpr (Arena.index_lt_size_of_owner? owner)
  simpa using (List.subperm_of_subset distinct inside).length_le

end Held

namespace Storable

variable (h : m.Storable)
include h

theorem held : m.Held := fun _ d b hd hb =>
  ⟨(h.readable d (Array.mem_of_getElem? hd) b hb).nodup, fun _ => h.owner?_of_mem hd hb⟩

/-- There are at least as many slots as instructions in bodies. -/
theorem instructionCount_le : m.instructionCount ≤ m.arena.size := h.held.instructionCount_le

/-- Compaction loads the file again. -/
theorem compacted_eq : m.compacted = .ok { m.view.build with touched := m.touched } := by
  rw [compacted, toFile_eq_view h.readable]
  have loaded := ModuleFile.load_eq_ok.mpr ⟨h.accepted, rfl⟩
  exact bind_eq_ok.mpr ⟨_, rfl, bind_eq_ok.mpr ⟨_, loaded, rfl⟩⟩

theorem addressed : Placement.Addressed m.view := by
  intro i e c he hc filled
  rw [view, Array.getElem?_map] at he
  obtain ⟨d, hd, rfl⟩ := Option.map_eq_some_iff.mp he
  obtain ⟨b, hb, rfl⟩ := Option.map_eq_some_iff.mp hc
  obtain ⟨hi, -⟩ | ⟨code, -⟩ := h.body_cases hd hb
  · exact hi
  · exact absurd (by simp [LiveBody.view, code]) filled

theorem room_build : m.view.build.arena.size ≤ Arena.capacity :=
  size_build_view.trans_le (h.instructionCount_le.trans h.room)

/-- What compaction leaves is storable. -/
theorem build : m.view.build.Storable :=
  Placement.storable_build h.accepted h.addressed h.room_build

/-- Compaction does not change the file. -/
theorem view_build : m.view.build.view = m.view := Placement.view_build h.accepted h.room_build

end Storable

end Module

end Graft
