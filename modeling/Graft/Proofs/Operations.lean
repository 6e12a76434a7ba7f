import Graft.Proofs.Naming
import Graft.Proofs.Pending

/-!
# What operations leave to verify

Every operation of a plan, if it succeeds, leaves no body pending but those that count as touched.
Most of them are edits of one body, which they touch. Making a method public changes no calls, and a
method that is declared as a copy has no body or is filled at once.
-/

namespace Graft

namespace Module

variable {m : Module} {j k : MethodId} {b : LiveBody} {a : Arena}

@[simp] theorem touched_raiseMaxStack : (m.raiseMaxStack k).touched = m.touched := by
  unfold raiseMaxStack
  split <;> rfl

theorem mem_touched_rebuilt : k ∈ (m.rebuilt k b a).touched := by
  simp [rebuilt]

end Module

namespace Edit

variable {α β : Type} {m m' : Module} {k source template callee : MethodId} {owner : TypeId}
  {name : String} {p first last count : Nat} {i : Instruction InsnId} {f : Fragment}

/-! ## Touched bodies -/

/-- If the edit succeeds, the method counts as touched. -/
def Touches (k : MethodId) (e : Edit α) : Prop :=
  ∀ m a m', e.apply m = (.ok a, m') → k ∈ m'.touched

theorem Touches.bind {e : Edit α} {f : α → Edit β} (hf : ∀ a, (f a).Touches k) :
    (e >>= f).Touches k := by
  intro m b m' h
  obtain ⟨a, m₁, -, h⟩ := apply_bind_ok.mp h
  exact hf a m₁ b m' h

theorem Touches.discard {e : Edit α} (he : e.Touches k) : (discard e : Edit Unit).Touches k := by
  intro m _ m' h
  obtain ⟨a, h⟩ := apply_discard_ok.mp h
  exact he m a m' h

theorem touches_insertAt : (insertAt k p i).Touches k := by
  intro m id m' h
  obtain ⟨b, -, -, -, -, rfl⟩ := apply_insertAt_ok.mp h
  exact Module.mem_touched_rebuilt

theorem touches_append {code : List (Instruction InsnId)} : (append k code).Touches k := by
  intro m ids m' h
  obtain ⟨b, -, -, -, rfl⟩ := apply_append_ok.mp h
  exact Module.mem_touched_rebuilt

theorem touches_removeRange : (removeRange k first last).Touches k := by
  intro m ids m' h
  obtain ⟨b, ranges, -, -, -, -, -, rfl⟩ := apply_removeRange_ok.mp h
  exact Module.mem_touched_rebuilt

theorem touches_replaceAt : (replaceAt k p i).Touches k := by
  intro m id m' h
  obtain ⟨b, old, -, -, -, -, rfl⟩ := apply_replaceAt_ok.mp h
  exact Module.mem_touched_rebuilt

theorem touches_splice : (splice k p f).Touches k := by
  intro m ids m' h
  obtain ⟨b, -, -, -, -, rfl⟩ := apply_splice_ok.mp h
  exact Module.mem_touched_rebuilt

theorem touches_copyRange : (copyRange k source first last p).Touches k :=
  .bind fun _ => .bind fun _ => touches_splice

theorem touches_pad : (pad k p count).Touches k :=
  .bind fun _ => .bind fun _ => .bind fun _ => touches_splice

theorem touches_returnLiteral {value : Literal TypeId} : (returnLiteral k value).Touches k :=
  .bind fun _ => .bind fun _ => .bind fun _ => .bind fun _ => touches_append

theorem touches_copyBody : (copyBody source k).Touches k :=
  .bind fun _ => .bind fun _ => .bind fun (_, _) => .bind fun _ => touches_splice

theorem touches_placeCall {call : List (Instruction Empty)} :
    (placeCall k callee call).Touches k := .bind fun _ => touches_splice

theorem touches_injectCall : (injectCall k callee).Touches k := by
  rw [injectCall_eq]
  refine .bind fun _ => .bind fun _ => .bind fun receiver => ?_
  cases receiver with
  | none => exact touches_placeCall
  | some receiver => exact .bind fun _ => touches_placeCall

/-! ## Edits that leave nothing else pending -/

/-- The edit of a body that may be pending leaves it touched. -/
theorem pending_of_contained {e : Edit α} {a : α} (he : e.Contained k) (touches : e.Touches k)
    (h : m.Pending (k :: m.touched)) (ok : e.apply m = (.ok a, m'))
    (room : m'.arena.size ≤ Arena.capacity) : m'.Pending m'.touched := by
  have grown := (he.grows.of_eq ok).touched
  obtain ⟨claimed, frame⟩ := he.keeps_of_eq h.claimed ok room
  refine (h.frame List.mem_cons_self claimed frame).mono fun j hj => ?_
  rcases List.mem_cons.mp hj with rfl | hj
  · exact touches m a m' ok
  · exact grown j hj

/-- Nothing that verification looks at changes. -/
theorem pending_makePublic (h : m.Pending m.touched)
    (ok : (makePublic k).apply m = (.ok (), m')) : m'.Pending m'.touched := by
  obtain rfl : m.modifyMethod k (fun d => { d with flags := d.flags.makePublic }) = m' :=
    congrArg Prod.snd ok
  refine h.modifyMethod (fun _ => rfl) (fun _ => rfl) (fun _ => rfl) fun d => ⟨?_, ?_⟩
  · exact MethodFlags.has_makePublic (by decide) (by decide)
  · exact MethodFlags.has_makePublic (by decide) (by decide)

/-! ## Copies of methods -/

/-- The copy of a method when it is declared. -/
def blankCopy (m : Module) (owner : TypeId) (name : String) (d : Method LiveBody) :
    Method LiveBody :=
  { d with owner, name, body := if getsBody m owner d.flags then some Body.empty else none }

theorem blank_blankCopy {d : Method LiveBody} : (blankCopy m owner name d).Blank := by
  intro b hb
  simp only [blankCopy, Option.ite_none_right_eq_some, Option.some.injEq] at hb
  obtain ⟨-, rfl⟩ := hb
  exact ⟨rfl, rfl⟩

/-- A copy without a body need not have one. -/
theorem declared_blankCopy {d : Method LiveBody} (bare : (blankCopy m owner name d).body = none) :
    d.flags.has MethodFlags.abstract = true ∨ m.isExternal owner = true := by
  have none : getsBody m owner d.flags = false := by simpa [blankCopy] using bare
  simp only [getsBody, Bool.and_eq_false_iff, Bool.not_eq_false'] at none
  exact none.symm

/-- The module once the locals were copied. -/
def localsCopied (d : Method LiveBody) (k : MethodId) (m : Module) : Module :=
  match d.body, m.body? k with
  | some b, some new => m.setBody k { new with locals := b.locals, initLocals := b.initLocals }
  | _, _ => m

theorem apply_copyLocals {d : Method LiveBody} :
    (copyLocals d k).apply m = (.ok k, localsCopied d k m) := by
  rw [copyLocals, apply_get_bind, localsCopied]
  cases d.body <;> cases m.body? k <;> rfl

theorem apply_cloneSignature_blank
    (h : (cloneSignature owner template name).apply m = (.ok k, m')) :
    ∃ d, m.method? template = some d ∧ k = m.nextMethod ∧
      m' = localsCopied d k (m.addMethod (blankCopy m owner name d)) := by
  rw [cloneSignature_eq, apply_get_bind] at h
  cases hd : m.method? template with
  | none => simp [hd] at h
  | some d =>
    rw [hd, apply_bind, apply_addMethod] at h
    cases hn : Tables.requireName name with
    | error fault => simp [hn] at h
    | ok _ =>
      simp only [hn, apply_copyLocals, Prod.mk.injEq, Except.ok.injEq] at h
      obtain ⟨rfl, rfl⟩ := h
      exact ⟨d, rfl, rfl, rfl⟩

@[simp] theorem touched_localsCopied {d : Method LiveBody} :
    (localsCopied d k m).touched = m.touched := by
  unfold localsCopied
  split <;> rfl

/-- Copying locals changes one body at most, and no instruction of it. -/
theorem frame_localsCopied {d : Method LiveBody} (claimed : m.Claimed) :
    (localsCopied d k m).Claimed ∧ m.Frame k (localsCopied d k m) := by
  rw [localsCopied]
  cases d.body with
  | none => exact ⟨claimed, .refl k m⟩
  | some b =>
    cases hb : m.body? k with
    | none => exact ⟨claimed, .refl k m⟩
    | some new =>
      have old := claimed k new hb
      have arena := Arena.Frame.refl k m.arena
      exact ⟨claimed.withBody hb arena ⟨old.nodup, old.owner?⟩, .withBody hb arena⟩

theorem pending_cloneMethod {old : String} (h : m.Pending m.touched)
    (found : m.requireMethod owner old = .ok template)
    (ok : (cloneMethod owner template name).apply m = (.ok (), m'))
    (room : m'.arena.size ≤ Arena.capacity) : m'.Pending m'.touched := by
  obtain ⟨k, m₁, clone, rest⟩ := apply_bind_ok.mp ok
  obtain ⟨d, hd, rfl, rfl⟩ := apply_cloneSignature_blank clone
  rw [apply_get_bind] at rest
  have body : (m.addMethod (blankCopy m owner name d)).body? template = d.body :=
    Module.body?_of_method? (Module.method?_addMethod_of_some hd)
  have inside : owner.index < m.types.size := Tables.index_lt_of_requireMethod found
  cases hb : d.body with
  | none =>
    -- the template is abstract or external, and so is its copy
    have bare (room : m.methods.size < Arena.capacity) :
        (blankCopy m owner name d).body = none := by
      rcases h.declared template d hd hb with abstract | external
      · simp [blankCopy, getsBody, abstract]
      · rw [h.coherent.owner_of_requireMethod room.le found hd] at external
        simp [blankCopy, getsBody, external]
    simp only [localsCopied, hb, body] at rest
    cases rest
    exact h.addMethod inside blank_blankCopy declared_blankCopy fun room => .inl (bare room)
  | some b =>
    -- the copy is pending until its body is copied
    have added : (m.addMethod (blankCopy m owner name d)).Pending (m.nextMethod :: m.touched) :=
      (h.mono fun _ => List.mem_cons_of_mem _).addMethod inside blank_blankCopy declared_blankCopy
        fun _ => .inr List.mem_cons_self
    obtain ⟨claimed, frame⟩ := frame_localsCopied (d := d) (k := m.nextMethod) added.claimed
    have declared := added.frame List.mem_cons_self claimed frame
    have filled := frame.isSome_body?_eq template
    rw [body, hb, Option.isSome_some] at filled
    rw [if_pos filled] at rest
    obtain ⟨ids, copied⟩ := apply_discard_ok.mp rest
    exact pending_of_contained contained_copyBody touches_copyBody
      (declared.mono fun j hj => by rwa [touched_localsCopied]) copied room

/-! ## Operations -/

open Plan

/-- What an operation can do to a module: it edits one body, which it touches, it makes a method
public, or it declares a copy of a method on its type. -/
inductive Effect (m m' : Module) : Prop where
  | body {k : MethodId} {e : Edit Unit} (contained : e.Contained k) (touches : e.Touches k)
    (ok : e.apply m = (.ok (), m'))
  | access {k : MethodId} (ok : (makePublic k).apply m = (.ok (), m'))
  | copy {owner : TypeId} {template : MethodId} {old name : String}
    (found : m.requireMethod owner old = .ok template)
    (ok : (cloneMethod owner template name).apply m = (.ok (), m'))

/-- An operation looks up what it names, and then has its effect. -/
theorem effect_operation {o : Operation} (ok : (operation o).apply m = (.ok (), m')) :
    Effect m m' := by
  cases o with
  | setReturn target value =>
    obtain ⟨k, -, ok⟩ := apply_check_bind_ok.mp ok
    obtain ⟨value, -, ok⟩ := apply_check_bind_ok.mp ok
    exact .body contained_returnLiteral.discard touches_returnLiteral.discard ok
  | makePublic target =>
    obtain ⟨k, -, ok⟩ := apply_check_bind_ok.mp ok
    exact .access ok
  | injectCall target callee =>
    obtain ⟨k, -, ok⟩ := apply_check_bind_ok.mp ok
    obtain ⟨callee, -, ok⟩ := apply_check_bind_ok.mp ok
    exact .body contained_injectCall.discard touches_injectCall.discard ok
  | removeRange target first last =>
    obtain ⟨k, -, ok⟩ := apply_check_bind_ok.mp ok
    exact .body contained_removeRange.discard touches_removeRange.discard ok
  | pad target position count =>
    obtain ⟨k, -, ok⟩ := apply_check_bind_ok.mp ok
    exact .body contained_pad.discard touches_pad.discard ok
  | cloneMethod template name =>
    obtain ⟨owner, -, ok⟩ := apply_check_bind_ok.mp ok
    obtain ⟨k, found, ok⟩ := apply_check_bind_ok.mp ok
    exact .copy found ok
  | insert target position i =>
    obtain ⟨k, -, ok⟩ := apply_check_bind_ok.mp ok
    obtain ⟨i, -, ok⟩ := apply_check_bind_ok.mp ok
    exact .body contained_insertAt.discard touches_insertAt.discard ok
  | replace target position i =>
    obtain ⟨k, -, ok⟩ := apply_check_bind_ok.mp ok
    obtain ⟨i, -, ok⟩ := apply_check_bind_ok.mp ok
    exact .body contained_replaceAt.discard touches_replaceAt.discard ok
  | copyRange target source first last position =>
    obtain ⟨k, -, ok⟩ := apply_check_bind_ok.mp ok
    obtain ⟨source, -, ok⟩ := apply_check_bind_ok.mp ok
    exact .body contained_copyRange.discard touches_copyRange.discard ok

/-- Whatever an operation does to a module, it leaves no body to verify that it does not touch. -/
theorem pending_operation {o : Operation} (h : m.Pending m.touched)
    (ok : (operation o).apply m = (.ok (), m')) (room : m'.arena.size ≤ Arena.capacity) :
    m'.Pending m'.touched := by
  cases effect_operation ok with
  | body contained touches ok =>
    exact pending_of_contained contained touches (h.mono fun _ => List.mem_cons_of_mem _) ok room
  | access ok => exact pending_makePublic h ok
  | copy found ok => exact pending_cloneMethod h found ok room

end Edit

end Graft
