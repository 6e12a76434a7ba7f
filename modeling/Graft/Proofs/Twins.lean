import Graft.Proofs.Storable

/-!
# Modules that cannot be told apart

Two storable modules are twins if their files are the same and the same methods count as touched.
Their arenas may differ in everything: in handles, and in slots that no body holds any more. Twins
stay twins if their bodies are changed in the same way, they verify the same bodies, and compaction
makes one module of them.
-/

namespace Graft

/-- Methods that are stored as the same are declared as the same. -/
theorem Method.head_of_view {a a' : Arena} {d d' : Method LiveBody}
    (h : d'.view a' = d.view a) : d'.head = d.head :=
  congrArg (fun e : Method FileBody => e.head) h

namespace Module

variable {m m' : Module} {j k : MethodId} {b b' c c' : LiveBody} {a a' : Arena}
  {d d' : Method LiveBody}

/-! ## The same file -/

section View

variable (same : m'.view = m.view)
include same

theorem header_of_view : m'.header = m.header := by
  rw [← header_view, same, header_view]

/-- What types list is not in the file, but follows from it. -/
theorem declarations_of_view (coherent : m.Coherent) (coherent' : m'.Coherent) :
    m'.declarations = m.declarations :=
  coherent.declarations_eq coherent' (header_of_view same)

theorem map_method?_of_view :
    (m'.method? k).map (Method.view m'.arena) = (m.method? k).map (Method.view m.arena) := by
  simpa [Module.view, Tables.method?] using
    congrArg (fun f : ModuleFile => f.methods[k.index]?) same

theorem map_body?_of_view : (m'.body? k).map (LiveBody.view m'.arena) =
    (m.body? k).map (LiveBody.view m.arena) := by
  have bodies := congrArg (fun d => d.bind Method.body) (map_method?_of_view same (k := k))
  rw [body?, body?]
  cases hd : m.method? k <;> cases hd' : m'.method? k <;> simp_all [Method.view]

theorem isSome_body?_of_view : (m'.body? k).isSome = (m.body? k).isSome := by
  simpa using congrArg Option.isSome (map_body?_of_view same (k := k))

/-- Bodies that are seen as the same have the same locals if these are numbered. -/
theorem alike_of_view (declarations : m'.declarations = m.declarations)
    (hb : m.body? k = some b) (hb' : m'.body? k = some b') (readable : b.Readable m.arena)
    (readable' : b'.Readable m'.arena) (indexed : b.Indexed) (indexed' : b'.Indexed) :
    Alike k m m' b b' := by
  have view : b'.view m'.arena = b.view m.arena := by
    simpa [hb, hb'] using map_body?_of_view same (k := k)
  have locals := indexed.locals_eq indexed' (congrArg (fun c : FileBody => c.locals) view)
  exact ⟨declarations, hb, hb', readable, readable', view, locals⟩

end View

/-! ## Twins -/

/-- The modules are stored in the same file, and the second has no more slots than the first. -/
structure Twin (m m' : Module) : Prop where
  storable : m.Storable
  storable' : m'.Storable
  view : m'.view = m.view
  touched : m'.touched = m.touched
  slots : m'.arena.size ≤ m.arena.size

theorem Storable.twin_self (h : m.Storable) : Twin m m := ⟨h, h, rfl, rfl, le_rfl⟩

namespace Twin

variable (h : Twin m m')
include h

theorem declarations : m'.declarations = m.declarations :=
  declarations_of_view h.view h.storable.coherent h.storable'.coherent

theorem outline : m'.outline = m.outline := Tables.outline_of_declarations h.declarations

theorem size_methods : m'.methods.size = m.methods.size := by
  simpa [Module.view] using congrArg (fun f : ModuleFile => f.methods.size) h.view

theorem size_types : m'.types.size = m.types.size :=
  congrArg Array.size (Tables.types_eq_of_declarations h.declarations)

theorem knows {s : TypeSig} : m'.Knows s ↔ m.Knows s := by
  rw [Tables.Knows, Tables.Knows, h.size_types]

theorem isSome_body? : (m'.body? k).isSome = (m.body? k).isSome := isSome_body?_of_view h.view

theorem alike (hb : m.body? k = some b) (hb' : m'.body? k = some b') : Alike k m m' b b' :=
  alike_of_view h.view h.declarations hb hb' (h.storable.linked.readable hb)
    (h.storable'.linked.readable hb') (h.storable.indexed_body hb) (h.storable'.indexed_body hb')

theorem exists_alike (hb : m.body? k = some b) :
    ∃ b', m'.body? k = some b' ∧ Alike k m m' b b' := by
  have some := h.isSome_body? (k := k)
  rw [hb, Option.isSome_some] at some
  obtain ⟨b', hb'⟩ := Option.isSome_iff_exists.mp some
  exact ⟨b', hb', h.alike hb hb'⟩

theorem exists_alike' (hb' : m'.body? k = some b') :
    ∃ b, m.body? k = some b ∧ Alike k m m' b b' := by
  have some := h.isSome_body? (k := k)
  rw [hb', Option.isSome_some] at some
  obtain ⟨b, hb⟩ := Option.isSome_iff_exists.mp some.symm
  exact ⟨b, hb, h.alike hb hb'⟩

theorem methodName : m'.methodName k = m.methodName k :=
  Tables.methodName_of_outline h.outline

theorem method_cases :
    (m.method? k = none ∧ m'.method? k = none) ∨
      ∃ d d', m.method? k = some d ∧ m'.method? k = some d' ∧
        d'.view m'.arena = d.view m.arena := by
  have same := map_method?_of_view h.view (k := k)
  cases hd : m.method? k with
  | none =>
    rw [hd, Option.map_none, Option.map_eq_none_iff] at same
    exact .inl ⟨rfl, same⟩
  | some d =>
    rw [hd, Option.map_some] at same
    obtain ⟨d', hd', view⟩ := Option.map_eq_some_iff.mp same
    exact .inr ⟨d, d', rfl, hd', view⟩

/-- A method has a body in both modules or in neither. -/
theorem body_cases : (m.body? k = none ∧ m'.body? k = none) ∨ ∃ b b', Alike k m m' b b' := by
  have both := h.isSome_body? (k := k)
  cases hb : m.body? k with
  | none =>
    rw [hb, Option.isSome_none, Option.isSome_eq_false_iff, Option.isNone_iff_eq_none] at both
    exact .inl ⟨rfl, both⟩
  | some b =>
    obtain ⟨b', -, alike⟩ := h.exists_alike hb
    exact .inr ⟨b, b', alike⟩

/-! ## Changes -/

theorem withTouched (ks : List MethodId) :
    Twin { m with touched := ks } { m' with touched := ks } :=
  ⟨h.storable.withTouched ks, h.storable'.withTouched ks, h.view, rfl, h.slots⟩

theorem clearTouched : Twin m.clearTouched m'.clearTouched := h.withTouched []

theorem touch : Twin (m.touch k) (m'.touch k) := by
  have touched : (m'.touch k).touched = (m.touch k).touched := congrArg (insertId k) h.touched
  exact ⟨h.storable.touch, h.storable'.touch, h.view, touched, h.slots⟩

/-- Bodies that look alike are put in. -/
theorem withBody (new : m.Replacement k c a) (new' : m'.Replacement k c' a')
    (same : c'.view a' = c.view a) (slots : a'.size ≤ a.size) :
    Twin (m.withBody k c a) (m'.withBody k c' a') where
  storable := h.storable.withBody new
  storable' := h.storable'.withBody new'
  view := by
    rw [h.storable.view_withBody new.frame, h.storable'.view_withBody new'.frame, h.view, same]
  touched := h.touched
  slots := slots

end Twin

/-- The declared stack depth is not looked at. -/
theorem Replacement.withMaxStack (new : m.Replacement k c a) (depth : UInt16) :
    m.Replacement k { c with maxStack := depth } a where
  body := new.body
  frame := new.frame
  tied := ⟨⟨new.tied.nodup, new.tied.targets, new.tied.markers⟩, new.tied.owner_iff⟩
  indexed := new.indexed.of_locals_eq rfl
  known := ⟨new.known.resolves, new.known.caught, new.known.locals, new.known.count⟩
  room := new.room

theorem Replacement.touch (new : m.Replacement k c a) : (m.touch k).Replacement k c a :=
  ⟨new.body, new.frame, new.tied, new.indexed, new.known, new.room⟩

theorem raisedDepth_eq : m.raisedDepth k b =
    (m.simulate k).toOption.elim b.maxStack fun required => max b.maxStack (.ofNat required) := by
  rw [raisedDepth]
  cases m.simulate k <;> rfl

theorem Alike.raisedDepth (h : Alike k m m' b b') : m'.raisedDepth k b' = m.raisedDepth k b := by
  rw [raisedDepth_eq, raisedDepth_eq, h.simulate, h.maxStack]

namespace Twin

variable (h : Twin m m')
include h

/-- Bodies that look alike need the same stack depth. -/
theorem rebuilt (new : m.Replacement k c a) (new' : m'.Replacement k c' a')
    (same : c'.view a' = c.view a) (slots : a'.size ≤ a.size) :
    Twin (m.rebuilt k c a) (m'.rebuilt k c' a') := by
  obtain ⟨b, hb⟩ := new.body
  obtain ⟨b', hb'⟩ := new'.body
  -- the depth is found by simulating what was put in, before it is written into the body
  have put := h.touch.withBody new.touch new'.touch same slots
  have depths := (put.alike (body?_withBody_self (m := m.touch k) hb)
    (body?_withBody_self (m := m'.touch k) hb')).raisedDepth
  rw [rebuilt_eq hb, rebuilt_eq hb', depths]
  generalize ((m.touch k).withBody k c a).raisedDepth k c = depth
  exact h.touch.withBody (new.withMaxStack depth).touch (new'.withMaxStack depth).touch
    (congrArg (fun v : FileBody => { v with maxStack := depth }) same) slots

theorem addMethod (head : d.Declarable m.toTables) (fresh : ∀ b, d.body = some b → b = Body.empty) :
    Twin (m.addMethod d) (m'.addMethod d) where
  storable := h.storable.addMethod head fresh
  storable' := h.storable'.addMethod
    (head.mono (Tables.types_eq_of_declarations h.declarations ▸ le_rfl)) fresh
  view := by
    have same : d.view m'.arena = d.view m.arena := Method.view_congr fun b hb => by
      rw [fresh b hb]
      rfl
    rw [view_addMethod, view_addMethod, h.view, same]
  touched := h.touched
  slots := h.slots

theorem setFlags {g : MethodFlags → MethodFlags} :
    Twin (m.modifyMethod k fun d => { d with flags := g d.flags })
      (m'.modifyMethod k fun d => { d with flags := g d.flags }) where
  storable := h.storable.setFlags
  storable' := h.storable'.setFlags
  view := by rw [view_setFlags, view_setFlags, h.view]
  touched := h.touched
  slots := h.slots

/-! ## Verification and compaction -/

theorem verifyBodies {ks : List MethodId} :
    m'.verifyBodies ks = .ok () ↔ m.verifyBodies ks = .ok () := by
  rw [verifyBodies_eq_ok, verifyBodies_eq_ok]
  refine forall₂_congr fun k _ => ?_
  constructor
  · rintro ⟨b', r, hb', verified⟩
    obtain ⟨b, hb, alike⟩ := h.exists_alike' hb'
    exact ⟨b, r, hb, (alike.verified (fun _ => h.storable.linked.owner?_eq hb)
      (fun _ => h.storable'.linked.owner?_eq hb')).mp verified⟩
  · rintro ⟨b, r, hb, verified⟩
    obtain ⟨b', hb', alike⟩ := h.exists_alike hb
    exact ⟨b', r, hb', (alike.verified (fun _ => h.storable.linked.owner?_eq hb)
      (fun _ => h.storable'.linked.owner?_eq hb')).mpr verified⟩

/-- Compaction forgets what twins differ in. -/
theorem compacted : m'.compacted = m.compacted := by
  rw [h.storable.compacted_eq, h.storable'.compacted_eq, h.view, h.touched]

end Twin

/-- A compacted module is a twin of what it was made from. -/
theorem Storable.twin_build (h : m.Storable) :
    Twin m { m.view.build with touched := m.touched } where
  storable := h
  storable' := h.build.withTouched _
  view := h.view_build
  touched := rfl
  slots := size_build_view.trans_le h.instructionCount_le

end Module

end Graft
