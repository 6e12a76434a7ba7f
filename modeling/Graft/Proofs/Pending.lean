import Graft.Plan.Operation
import Graft.Proofs.Containment
import Graft.Proofs.Declaring
import Graft.Proofs.Relocation

/-!
# What a patch leaves to verify

Before a patch all bodies verify. While it runs, a body that it changes need not; every operation
counts the bodies that it changes as touched, so that verifying those is enough to know that all
bodies verify again.
-/

namespace Graft

namespace Module

variable {m m' : Module} {j k : MethodId} {ks : List MethodId} {b : LiveBody} {d : Method LiveBody}

/-- Every method without a body is abstract or belongs to an external type. -/
def Declared (m : Module) : Prop :=
  ∀ k d, m.method? k = some d → d.body = none →
    d.flags.has MethodFlags.abstract = true ∨ m.isExternal d.owner = true

theorem Declared.frame (h : m.Declared) (frame : m.Frame k m') : m'.Declared := by
  intro j d hd bare
  have heads := Tables.head_of_declarations frame.declarations j
  rw [hd] at heads
  obtain ⟨d₀, hd₀, head⟩ := Option.map_eq_some_iff.mp heads.symm
  have body : m.body? j = none := by
    have same := frame.isSome_body?_eq j
    rw [body?_of_method? hd, bare] at same
    simpa using same.symm
  rw [body?_of_method? hd₀] at body
  have types := Tables.types_eq_of_declarations frame.declarations
  rw [isExternal, Tables.type?, types, ← Method.flags_of_head head, ← Method.owner_of_head head]
  exact h j d₀ hd₀ body

/-- All bodies verify but those of the given methods, which are still to be looked at. -/
structure Pending (ks : List MethodId) (m : Module) : Prop where
  coherent : m.Coherent
  claimed : m.Claimed
  declared : m.Declared
  verified : ∀ k b, m.body? k = some b → k ∉ ks → ∃ r, m.Verified k b r

namespace Pending

theorem mono {ks' : List MethodId} (h : m.Pending ks) (sub : ∀ k ∈ ks, k ∈ ks') : m.Pending ks' :=
  ⟨h.coherent, h.claimed, h.declared, fun k b hb hk => h.verified k b hb fun hm => hk (sub k hm)⟩

/-- A change of a body that is pending. -/
theorem frame (h : m.Pending ks) (hk : k ∈ ks) (claimed : m'.Claimed) (frame : m.Frame k m') :
    m'.Pending ks where
  coherent := h.coherent.of_declarations frame.declarations
  claimed := claimed
  declared := h.declared.frame frame
  verified j b hb hj := by
    have other : j ≠ k := fun same => hj (same ▸ hk)
    rw [frame.body?_of_ne j other] at hb
    obtain ⟨r, verified⟩ := h.verified j b hb hj
    exact ⟨r, verified.frame hb other frame⟩

/-- Once the pending bodies are verified, all are. -/
theorem verify (h : m.Pending ks) (verified : m.verifyBodies ks = .ok ()) : m.verify = .ok () := by
  rw [verifyBodies_eq_ok] at verified
  refine verify_eq_ok.mpr fun k b hb => ?_
  by_cases hk : k ∈ ks
  · obtain ⟨b', r, hb', verified⟩ := verified k hk
    obtain rfl : b = b' := Option.some.inj (hb.symm.trans hb')
    exact ⟨r, verified⟩
  · exact h.verified k b hb hk

/-- If all bodies verify, none is pending. -/
theorem of_verify (coherent : m.Coherent) (declared : m.Declared) (verify : m.verify = .ok ()) :
    m.Pending ks where
  coherent := coherent
  claimed k b hb := by
    obtain ⟨r, verified⟩ := verify_eq_ok.mp verify k b hb
    exact ⟨verified.sound.nodup, verified.owner?⟩
  declared := declared
  verified k b hb _ := verify_eq_ok.mp verify k b hb

end Pending

/-! ## New declarations -/

theorem extends_addMethod : m.toTables.Extends (m.addMethod d).toTables where
  types := Tables.size_types_enterMethod.ge
  fields := le_rfl
  method _ d' hd := ⟨d', method?_addMethod_of_some hd, rfl, rfl⟩

/-- What is listed with a type does not make it external. -/
theorem isExternal_congr (records : m'.records = m.records) (id : TypeId) :
    m'.isExternal id = m.isExternal id := by
  have external (m : Module) : m.isExternal id = m.records[id.index]?.any TypeDef.isExternal := by
    rw [isExternal, ← Tables.map_record_type?]
    cases m.type? id <;> rfl
  rw [external, records, external]

/-- A method is added that is blank, and either is pending or has no body. If there are no numbers
left, it does not count. -/
theorem Pending.addMethod (h : m.Pending ks) (owner : d.owner.index < m.types.size)
    (blank : d.Blank) (declared : d.body = none →
      d.flags.has MethodFlags.abstract = true ∨ m.isExternal d.owner = true)
    (hk : m.methods.size < Arena.capacity → d.body = none ∨ m.nextMethod ∈ ks) :
    (m.addMethod d).Pending ks := by
  refine ⟨h.coherent.enterMethod owner, fun j b hb => ?_, fun j e he bare => ?_,
    fun j b hb hj => ?_⟩ <;> by_cases place : j.index = m.methods.size
  · rw [body?_addMethod, if_pos place] at hb
    exact .of_code_eq_nil (blank b hb).1
  · rw [body?_addMethod, if_neg place] at hb
    exact h.claimed j b hb
  · rw [method?_addMethod, if_pos place] at he
    cases he
    rw [isExternal_congr Tables.records_enterMethod]
    exact declared bare
  · rw [method?_addMethod, if_neg place] at he
    rw [isExternal_congr Tables.records_enterMethod]
    exact h.declared j e he bare
  · rw [body?_addMethod, if_pos place] at hb
    rcases hk (place ▸ j.number.toNat_lt) with bare | pending
    · rw [hb] at bare
      cases bare
    · refine absurd pending ?_
      rwa [nextMethod, ← place, MethodId.ofIndex_index]
  · have hb' := hb
    rw [body?_addMethod, if_neg place] at hb
    obtain ⟨r, verified⟩ := h.verified j b hb hj
    exact ⟨r, verified.keep hb hb' extends_addMethod fun _ _ => rfl⟩

/-- An entry comes from the one before it, unchanged if it is the entry of another method. -/
theorem method?_modifyMethod_eq_some {f : Method LiveBody → Method LiveBody} {j : MethodId}
    {d' : Method LiveBody} :
    (m.modifyMethod k f).method? j = some d' ↔
      ∃ d, m.method? j = some d ∧ d' = if j = k then f d else d := by
  rw [method?_modifyMethod]
  by_cases hj : j = k
  · subst hj
    rw [if_pos rfl, Option.map_eq_some_iff]
    exact exists_congr fun d => and_congr_right fun _ => by rw [if_pos rfl, eq_comm]
  · rw [if_neg hj]
    simp [hj]

theorem extends_modifyMethod {f : Method LiveBody → Method LiveBody}
    (signature : ∀ d, (f d).signature = d.signature) (static : ∀ d, (f d).isStatic = d.isStatic) :
    m.toTables.Extends (m.modifyMethod k f).toTables := by
  refine ⟨le_rfl, le_rfl, fun j d hd => ⟨_, method?_modifyMethod_eq_some.mpr ⟨d, hd, rfl⟩, ?_⟩⟩
  split
  · exact ⟨signature d, static d⟩
  · exact ⟨rfl, rfl⟩

/-- The entry of a method changes, but neither its body nor what calls and declarations go by. -/
theorem Pending.modifyMethod {f : Method LiveBody → Method LiveBody} (h : m.Pending ks)
    (body : ∀ d, (f d).body = d.body) (owner : ∀ d, (f d).owner = d.owner)
    (signature : ∀ d, (f d).signature = d.signature)
    (flags : ∀ d, (f d).isStatic = d.isStatic ∧
      (f d).flags.has MethodFlags.abstract = d.flags.has MethodFlags.abstract) :
    (m.modifyMethod k f).Pending ks := by
  have tables : m.toTables.Extends (m.modifyMethod k f).toTables :=
    extends_modifyMethod signature fun d => (flags d).1
  refine ⟨h.coherent.of_eq rfl rfl (map_modify_of_eq owner),
    fun j b hb => h.claimed j b (body?_modifyMethod body j ▸ hb), ?_, fun j b hb hj => ?_⟩
  · intro j d' hd' bare
    obtain ⟨d, hd, rfl⟩ := method?_modifyMethod_eq_some.mp hd'
    split at bare
    · rw [if_pos ‹_›, (flags d).2, owner]
      exact h.declared j d hd (body d ▸ bare)
    · rw [if_neg ‹_›]
      exact h.declared j d hd bare
  · have hb : m.body? j = some b := body?_modifyMethod body j ▸ hb
    obtain ⟨r, verified⟩ := h.verified j b hb hj
    exact ⟨r, verified.keep hb ((body?_modifyMethod body j).trans hb) tables fun _ _ => rfl⟩

end Module

end Graft
