import Graft.Proofs.Copying
import Graft.Proofs.Operations

/-!
# Cloning methods

A copy of a method is declared like the method and seen like it. Whether it has a body is decided
by its flags and its type, and whether there is a body to copy by the template, and a file may hold
a template without a body although it is neither abstract nor of an external type. Its copy has an
empty body, as any method has that is declared.
-/

namespace Graft

open Plan

namespace Module

variable {m m' : Module} {j k : MethodId} {d : Method LiveBody} {owner : TypeId}

/-! ## One method more -/

/-- A method that is added is the last one of its type. -/
theorem methodsOf_addMethod (owner : d.owner.index < m.types.size) :
    (m.addMethod d).methodsOf d.owner = m.methodsOf d.owner ++ [m.nextMethod] :=
  congrArg Members.methods (Tables.membersOf_enterMethod owner)

theorem size_methods_of_declarations (h : m'.declarations = m.declarations) :
    m'.methods.size = m.methods.size := by
  have := congrArg (fun t : Tables Members Empty => t.methods.size) h
  simpa [Tables.declarations] using this

theorem methodsOf_of_declarations (h : m'.declarations = m.declarations) :
    m'.methodsOf owner = m.methodsOf owner := by
  have outline := Tables.outline_of_declarations h
  rw [← Tables.methodsOf_outline, outline, Tables.methodsOf_outline]

/-! ## Clones -/

/-- The method that was declared last is the method `k`, whose entry was `d`, under a new name. -/
structure Cloned (m m' : Module) (k : MethodId) (d : Method LiveBody) (name : String) : Prop where
  index : m'.methods.size = m.nextMethod.index + 1
  last : m'.methodsOf d.owner = m.methodsOf d.owner ++ [m.nextMethod]
  entry : ∃ body, m'.method? m.nextMethod = some { d with name, body }
  hasBody : (m'.body? m.nextMethod).isSome ↔ d.body.isSome ∨
    m.isExternal d.owner = false ∧ d.flags.has MethodFlags.abstract = false
  copied : ∀ b, d.body = some b → ∃ v b' v', m.fileBody k b = .ok v ∧
    m'.body? m.nextMethod = some b' ∧ b'.locals = b.locals ∧
      m'.fileBody m.nextMethod b' = .ok v' ∧ { v' with maxStack := v.maxStack } = v
  blank : d.body = none → ∀ b', m'.body? m.nextMethod = some b' → b' = Body.empty
  template : m.Intact k m'
  verifies : ∀ r, m.verifyBody k = .ok r → m'.verifyBody m.nextMethod = .ok r

end Module

namespace Edit

variable {m m' : Module} {k : MethodId} {d : Method LiveBody} {name : String}

/-- The entry of a clone when it is declared. -/
def cloneEntry (m : Module) (d : Method LiveBody) (name : String) : Method LiveBody :=
  { d with name, body := signatureBody m d.owner d }

theorem blank_cloneEntry : (cloneEntry m d name).Blank := by
  intro b hb
  simp only [cloneEntry, signatureBody, Option.ite_none_right_eq_some, Option.some.injEq] at hb
  obtain ⟨-, rfl⟩ := hb
  cases d.body <;> exact ⟨rfl, rfl⟩

theorem isSome_body_cloneEntry :
    (cloneEntry m d name).body.isSome = getsBody m d.owner d.flags := by
  rw [cloneEntry, signatureBody]
  cases getsBody m d.owner d.flags <;> rfl

theorem getsBody_eq_true : getsBody m d.owner d.flags = true ↔
    m.isExternal d.owner = false ∧ d.flags.has MethodFlags.abstract = false := by
  rw [getsBody, Bool.and_eq_true, Bool.not_eq_true', Bool.not_eq_true']

/-- A clone is declared, and filled in if there is something to copy. -/
theorem apply_cloneMethod_ok (room : m.methods.size < Arena.capacity) (hd : m.method? k = some d)
    (ok : (cloneMethod d.owner k name).apply m = (.ok (), m')) :
    if d.body.isSome then ∃ ids,
      (copyBody k m.nextMethod).apply (m.addMethod (cloneEntry m d name)) = (.ok ids, m')
    else m' = m.addMethod (cloneEntry m d name) := by
  obtain ⟨new, m₁, clone, rest⟩ := apply_bind_ok.mp ok
  obtain ⟨e, he, -, rfl, rfl⟩ := (apply_cloneSignature_ok room).mp clone
  obtain rfl : d = e := Option.some.inj (hd.symm.trans he)
  have body : (m.addMethod (cloneEntry m d name)).body? k = d.body :=
    Module.body?_of_method? (Module.method?_addMethod_of_some hd)
  rw [apply_get_bind, ← cloneEntry, body] at rest
  split at rest
  · rw [if_pos ‹_›]
    exact apply_discard_ok.mp rest
  · rw [if_neg ‹_›]
    exact (congrArg Prod.snd rest).symm

section Clone

variable (linked : m.Linked) (room : m.methods.size < Arena.capacity)
  (slots : m'.arena.size ≤ Arena.capacity) (hd : m.method? k = some d)
  (ok : (cloneMethod d.owner k name).apply m = (.ok (), m'))
include linked room slots hd ok

/-- Nothing but the body of the clone is changed once it is declared. -/
theorem frame_of_cloneMethod : (m.addMethod (cloneEntry m d name)).Frame m.nextMethod m' := by
  have declared : (m.addMethod (cloneEntry m d name)).Linked := linked.addMethod blank_cloneEntry
  have cloned := apply_cloneMethod_ok room hd ok
  split at cloned
  · obtain ⟨ids, copied⟩ := cloned
    exact (contained_copyBody.keeps_of_eq declared.claimed copied slots).2
  · rw [cloned]
    exact .refl _ _

/-- The body of the clone has the locals of the template's, and is seen as it. -/
theorem exists_body?_of_cloneMethod {b : LiveBody} (hb : d.body = some b) :
    ∃ b', m'.body? m.nextMethod = some b' ∧ b'.Tied m.nextMethod m'.arena ∧
      b.maxStack ≤ b'.maxStack ∧ b'.locals = b.locals ∧
      b'.view m'.arena = { b.view m.arena with maxStack := b'.maxStack } := by
  have declared : (m.addMethod (cloneEntry m d name)).Linked := linked.addMethod blank_cloneEntry
  have cloned := apply_cloneMethod_ok room hd ok
  rw [if_pos (by rw [hb]; rfl)] at cloned
  obtain ⟨ids, copied⟩ := cloned
  obtain ⟨b₁, _, b', h, hb', tied, depth, locals, view⟩ := exists_copy declared copied slots
  have body : (m.addMethod (cloneEntry m d name)).body? k = some b :=
    (Module.body?_of_method? (Module.method?_addMethod_of_some hd)).trans hb
  obtain rfl : b = b₁ := Option.some.inj (body.symm.trans h.source)
  exact ⟨b', hb', tied, depth, locals, view⟩

/-- The clone is in the table, with the flags and the signature of the template. -/
theorem exists_method?_of_cloneMethod :
    ∃ body, m'.method? m.nextMethod = some { d with name, body } := by
  have head := Tables.head_of_declarations
    (frame_of_cloneMethod linked room slots hd ok).declarations m.nextMethod
  rw [Module.method?_addMethod, if_pos (Module.index_nextMethod room)] at head
  obtain ⟨⟨owner, name', flags, signature, body⟩, entry, same⟩ := Option.map_eq_some_iff.mp head
  cases same
  exact ⟨body, entry⟩

theorem isSome_body?_of_cloneMethod :
    (m'.body? m.nextMethod).isSome = getsBody m d.owner d.flags := by
  rw [(frame_of_cloneMethod linked room slots hd ok).isSome_body?, Module.body?_nextMethod room,
    isSome_body_cloneEntry]

/-- Declaring the clone and filling it in leave the template as it was. -/
theorem intact_of_cloneMethod (resolves : ∀ b, m.body? k = some b → ∀ id ∈ b.code, ∀ i,
      m.arena.get? id = some i → i.Resolves m.toTables) : m.Intact k m' := by
  have declared : (m.addMethod (cloneEntry m d name)).Linked := linked.addMethod blank_cloneEntry
  have frame := frame_of_cloneMethod linked room slots hd ok
  have known : k.index < m.methods.size := (Array.getElem?_eq_some_iff.mp hd).1
  have other : k ≠ m.nextMethod := fun same =>
    known.ne (by rw [same, Module.index_nextMethod room])
  refine (Module.intact_addMethod ?_ known.ne).trans (frame.intact declared.claimed other)
  -- no call in the template is one of the clone, which was not there yet
  intro b hb id hid i hi callee hcallee
  exact ((resolves b hb id hid i hi).method callee hcallee).ne

/-- What verifies in the template does so in the clone. -/
theorem verifyBody_of_cloneMethod {r : Nat} (accepted : m.verifyBody k = .ok r) :
    m'.verifyBody m.nextMethod = .ok r := by
  have declarations := (frame_of_cloneMethod linked room slots hd ok).declarations
  have new : (m.addMethod (cloneEntry m d name)).method? m.nextMethod =
      some (cloneEntry m d name) := by
    rw [Module.method?_addMethod, if_pos (Module.index_nextMethod room)]
  have body : m.body? k = d.body := Module.body?_of_method? hd
  obtain ⟨b, hb, verified⟩ := Module.verifyBody_eq_ok.mp accepted
  obtain ⟨b', hb', tied', depth, -, view⟩ :=
    exists_body?_of_cloneMethod linked room slots hd ok (body.symm.trans hb)
  refine Module.verifyBody_eq_ok.mpr ⟨b', hb', verified.of_view hb hb' tied'.readable
    (fun id => (tied'.owner_iff id).mpr) ?_ ?_ ?_ view
    (verified.declared.trans (UInt16.le_iff_toNat_le.mp depth))⟩
  · exact Module.extends_addMethod.trans (.of_declarations declarations)
  · rw [Tables.argumentCount_of_declarations declarations, Tables.argumentCount, new,
      Tables.argumentCount, hd]
    rfl
  · have outline := Tables.outline_of_declarations declarations
    rw [Tables.givesValue_of_outline outline, Tables.givesValue, new, Tables.givesValue, hd]
    rfl

theorem cloned_of_cloneMethod (inside : d.owner.index < m.types.size)
    (resolves : ∀ b, m.body? k = some b → ∀ id ∈ b.code, ∀ i,
      m.arena.get? id = some i → i.Resolves m.toTables) : m.Cloned m' k d name := by
  have declarations := (frame_of_cloneMethod linked room slots hd ok).declarations
  have isSome := isSome_body?_of_cloneMethod linked room slots hd ok
  constructor
  case index =>
    rw [Module.size_methods_of_declarations declarations, Module.size_methods_addMethod,
      Module.index_nextMethod room]
  case last =>
    rw [Module.methodsOf_of_declarations declarations]
    exact Module.methodsOf_addMethod (d := cloneEntry m d name) inside
  case entry => exact exists_method?_of_cloneMethod linked room slots hd ok
  case hasBody =>
    rw [isSome, getsBody_eq_true]
    refine ⟨.inr, Or.rec (fun filled => ?_) id⟩
    obtain ⟨b, hb⟩ := Option.isSome_iff_exists.mp filled
    obtain ⟨b', hb', -⟩ := exists_body?_of_cloneMethod linked room slots hd ok hb
    rw [← getsBody_eq_true, ← isSome, hb']
    rfl
  case copied =>
    intro b hb
    have tied := linked.tied ((Module.body?_of_method? hd).trans hb)
    obtain ⟨b', hb', tied', -, locals, view⟩ :=
      exists_body?_of_cloneMethod linked room slots hd ok hb
    refine ⟨_, b', _, Module.fileBody_eq tied.toLinked fun _ => tied.exists_get?, hb',
      locals, Module.fileBody_eq tied'.toLinked fun _ => tied'.exists_get?, ?_⟩
    rw [view]
  case blank =>
    intro none b' hb'
    have cloned := apply_cloneMethod_ok room hd ok
    rw [none, Option.isSome_none, if_neg Bool.false_ne_true] at cloned
    rw [cloned, Module.body?_nextMethod room, cloneEntry, signatureBody, none] at hb'
    simp only [Option.elim_none, Option.ite_none_right_eq_some, Option.some.injEq] at hb'
    exact hb'.2.symm
  case template => exact intact_of_cloneMethod linked room slots hd ok resolves
  case verifies => exact fun r => verifyBody_of_cloneMethod linked room slots hd ok

end Clone

/-- A clone-method operation looks up the type and the template, and clones. -/
theorem apply_operation_cloneMethod_ok {ref : MethodRef} :
    (operation (.cloneMethod ref name)).apply m = (.ok (), m') ↔
      ∃ owner k, m.requireType ref.type = .ok owner ∧ m.requireMethod owner ref.name = .ok k ∧
        (cloneMethod owner k name).apply m = (.ok (), m') := by
  constructor
  · intro ok
    obtain ⟨owner, type, ok⟩ := apply_check_bind_ok.mp ok
    obtain ⟨k, template, ok⟩ := apply_check_bind_ok.mp ok
    exact ⟨owner, k, type, template, ok⟩
  · rintro ⟨owner, k, type, template, ok⟩
    exact apply_check_bind_ok.mpr ⟨owner, type, apply_check_bind_ok.mpr ⟨k, template, ok⟩⟩

/-- A method that is cloned is there, and there was a number left for the clone. -/
theorem room_of_cloneMethod {owner : TypeId}
    (ok : (cloneMethod owner k name).apply m = (.ok (), m')) :
    (∃ d, m.method? k = some d) ∧ m.methods.size < m'.methods.size ∧
      m.arena.size ≤ m'.arena.size := by
  obtain ⟨new, m₁, clone, rest⟩ := apply_bind_ok.mp ok
  obtain ⟨d, hd, -, -⟩ := apply_cloneSignature_blank clone
  have declared := safe_cloneSignature.grows.of_eq clone
  rw [apply_get_bind] at rest
  have filled : m₁.Le m' := by
    split at rest
    · exact built_copyBody.discard.grows.of_eq rest
    · obtain rfl : m₁ = m' := congrArg Prod.snd rest
      exact .refl m₁
  exact ⟨⟨d, hd⟩, (size_lt_of_cloneSignature clone).trans_le filled.methods,
    declared.slots.trans filled.slots⟩

end Edit

/-- In a module that was loaded, a clone-method operation that succeeds declares the last method of
the table and of its type, with the flags and the signature of the template and the new name. It has
a body if the template has one or if it is neither abstract nor of an external type. A body of the
template was copied: instructions, exception ranges and locals are stored in the same way. If there
was none, nothing was, and the body is empty. The template is what it was, and if it verifies, the
clone does with the same depth. -/
theorem clone_is_faithful {f : ModuleFile} {m m' : Module} {ref : MethodRef} {name : String}
    (loaded : f.load = .ok m) (ok : (Edit.operation (.cloneMethod ref name)).apply m = (.ok (), m'))
    (n : m'.Numbered) : ∃ owner k d, m.requireType ref.type = .ok owner ∧
      m.requireMethod owner ref.name = .ok k ∧ m.method? k = some d ∧ d.owner = owner ∧
      m.Cloned m' k d name := by
  obtain ⟨check, rfl⟩ := ModuleFile.load_eq_ok.mp loaded
  obtain ⟨owner, k, type, template, ok⟩ := Edit.apply_operation_cloneMethod_ok.mp ok
  obtain ⟨⟨d, hd⟩, methods, slots⟩ := Edit.room_of_cloneMethod ok
  have n₀ : f.build.Numbered := ⟨methods.le.trans n.methods, slots.trans n.slots⟩
  obtain rfl := (f.coherent_build check).owner_of_requireMethod n₀.methods template hd
  exact ⟨_, k, d, type, template, hd, rfl, Edit.cloned_of_cloneMethod
    (Placement.linked_build check n₀) (methods.trans_le n.methods) n.slots hd ok
    (Tables.index_lt_of_requireMethod template) fun b hb id hid i hi =>
      Placement.resolves_build check n₀.slots hb hid hi⟩

namespace Sample

/-- The method of the sample once it is loaded. -/
def next : Method LiveBody :=
  ⟨⟨0⟩, "next", ⟨MethodFlags.visible ||| MethodFlags.static⟩, ⟨.primitive .int, [], []⟩, some live⟩

theorem method?_build_zero : file.build.method? ⟨0⟩ = some next := by decide

/-- The sample module when a copy of its method was declared. -/
def announced : Module := file.build.addMethod (Edit.cloneEntry file.build next "again")

theorem linked_announced : announced.Linked :=
  (Placement.linked_build checked numbered).addMethod Edit.blank_cloneEntry

theorem exists_copyBody_announced : ∃ ids m',
    (Edit.copyBody ⟨0⟩ ⟨1⟩).apply announced = (.ok ids, m') ∧ m'.Numbered := by
  have copyable : announced.Copyable ⟨0⟩ ⟨1⟩ live ⟨0, false, [], [], []⟩ := by
    constructor <;> decide
  have readable := (linked_announced.tied copyable.source).readable
  have usable : announced.Usable ⟨0⟩ live := fun id hid i hi =>
    ⟨Module.extends_addMethod.resolves (sound_live.resolves id hid i hi),
      sound_live.fits id hid i hi⟩
  obtain ⟨ids, m', copied⟩ := Edit.exists_copyBody_ok copyable readable usable
  have slots : m'.arena.size = 12 := by
    rw [Edit.size_arena_of_copyBody copyable readable copied]
    decide
  have room : m'.arena.size ≤ Arena.capacity := slots ▸ by decide
  have frame := (Edit.contained_copyBody.keeps_of_eq linked_announced.claimed copied room).2
  refine ⟨ids, m', copied, ?_, room⟩
  rw [Module.size_methods_of_declarations frame.declarations]
  decide

theorem apply_cloneMethod_file {ids : List InsnId} {m' : Module}
    (copied : (Edit.copyBody ⟨0⟩ ⟨1⟩).apply announced = (.ok ids, m')) :
    (Edit.operation (.cloneMethod ⟨"Counter", "next"⟩ "again")).apply file.build =
      (.ok (), m') := by
  have new : (Edit.cloneSignature ⟨0⟩ ⟨0⟩ "again").apply file.build = (.ok ⟨1⟩, announced) :=
    (Edit.apply_cloneSignature_ok (by decide)).mpr
      ⟨next, method?_build_zero, by decide, rfl, rfl⟩
  refine Edit.apply_operation_cloneMethod_ok.mpr
    ⟨⟨0⟩, ⟨0⟩, by decide, by decide, Edit.apply_bind_ok.mpr ⟨_, _, new, ?_⟩⟩
  have filled : (announced.body? ⟨0⟩).isSome := by decide
  rw [Edit.apply_get_bind, if_pos filled]
  exact Edit.apply_discard_ok.mpr ⟨ids, copied⟩

end Sample

/-- An instance: the clone of the only method of the sample module is method number one. -/
theorem clone_is_faithful_sample : ∃ m',
    (Edit.operation (.cloneMethod ⟨"Counter", "next"⟩ "again")).apply Sample.file.build =
      (.ok (), m') ∧ Sample.file.build.Cloned m' ⟨0⟩ Sample.next "again" := by
  obtain ⟨ids, m', copied, n⟩ := Sample.exists_copyBody_announced
  have ok := Sample.apply_cloneMethod_file copied
  obtain ⟨owner, k, d, type, template, hd, -, cloned⟩ := clone_is_faithful
    (ModuleFile.load_eq_ok.mpr ⟨Sample.checked, rfl⟩) ok n
  obtain rfl := Sample.eq_zero_of_method? hd
  obtain rfl : Sample.next = d := Option.some.inj (Sample.method?_build_zero.symm.trans hd)
  exact ⟨m', ok, cloned⟩

namespace Sample

/-- The file of a module whose only method is static and has no body, although it is not abstract
and its type is not external. -/
def declaration : ModuleFile := { file with methods := #[{ stub "start" with body := none }] }

end Sample

/-- A method without a body whose clone has one. -/
theorem clone_fills_in : ∃ m', Sample.declaration.load = .ok Sample.declaration.build ∧
    (Edit.operation (.cloneMethod ⟨"Counter", "start"⟩ "again")).apply Sample.declaration.build =
      (.ok (), m') ∧
    Sample.declaration.build.body? ⟨0⟩ = none ∧ m'.body? ⟨1⟩ = some Body.empty := by
  refine ⟨_, by decide +kernel, rfl, ?_⟩
  decide

end Graft
