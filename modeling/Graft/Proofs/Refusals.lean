import Graft.Proofs.Bystanders
import Graft.Proofs.Upkeep

/-!
# Refused edits

An edit that fails leaves nothing behind but that the body may count as touched. Most edits check
everything before they change anything. Two change the module in two stages, each with checks of its
own: a body is thrown away before instructions are put in, and a local is added before the code that
uses it. Once the first stage has succeeded, nothing is left that the second could object to.
-/

namespace Graft

variable {μ β : Type} {t : Tables Members β}

/-! ## What the second stage puts in -/

theorem Tables.index_lt_of_method? {t : Tables μ β} {k : MethodId} {d : Method β}
    (h : t.method? k = some d) : k.index < t.methods.size :=
  (Array.getElem?_eq_some_iff.mp h).1

/-- What pushes a value mentions what is there. -/
theorem Literal.fits_of_push {value : Literal TypeId} {push : Instruction InsnId}
    {arguments locals : Nat} (h : value.push t = .ok push) :
    push.Resolves t ∧ push.Fits arguments locals := by
  cases value with
  | fresh id =>
    obtain ⟨constructor, found, ⟨⟩⟩ := bind_eq_ok.mp h
    obtain ⟨-, d, hd, -⟩ :=
      Tables.findParameterlessConstructor_eq_some (Tables.requireConstructor_eq_ok.mp found)
    have there := Tables.index_lt_of_method? hd
    exact ⟨Instruction.resolves_call.mpr there, .of_none rfl rfl⟩
  | _ =>
    cases h
    exact ⟨.of_none rfl rfl rfl, .of_none rfl rfl⟩

/-- A call on a new receiver mentions the constructor, the callee and the local, and no more. -/
theorem fits_receiverCall {type : TypeSig} {constructor callee : MethodId} {slot : UInt16}
    {arguments locals : Nat} (hc : constructor.index < t.methods.size)
    (hk : callee.index < t.methods.size) (hs : slot.toNat < locals) :
    ∀ i ∈ receiverCall type constructor slot callee,
      i.Resolves t ∧ i.Fits arguments locals := by
  have calls : ∀ form id, id.index < t.methods.size →
      (Instruction.call form id : Instruction Empty).Resolves t ∧
        (Instruction.call form id : Instruction Empty).Fits arguments locals :=
    fun form id hid => ⟨Instruction.resolves_call.mpr hid, .of_none rfl rfl⟩
  have accesses : ∀ access, (Instruction.loc access slot : Instruction Empty).Resolves t ∧
      (Instruction.loc access slot : Instruction Empty).Fits arguments locals :=
    fun access => ⟨.of_none rfl rfl rfl, Instruction.fits_loc.mpr hs⟩
  intro i hi
  unfold receiverCall at hi
  rcases List.mem_cons.mp hi with rfl | hi
  · exact calls .construct constructor hc
  rcases List.mem_cons.mp hi with rfl | hi
  · exact accesses .store
  split at hi
  · rcases List.mem_pair.mp hi with rfl | rfl
    · exact accesses .loadAddress
    · exact calls .direct callee hk
  · rcases List.mem_pair.mp hi with rfl | rfl
    · exact accesses .load
    · exact calls .virtual callee hk

/-- Straight code mentions what its instructions do. -/
theorem fits_straight {code : List (Instruction Empty)} {arguments locals : Nat}
    (fits : ∀ i ∈ code, i.Resolves t ∧ i.Fits arguments locals) :
    ∀ i ∈ (Fragment.straight code).code, i.Resolves t ∧ i.Fits arguments locals := by
  intro i hi
  obtain ⟨j, hj, rfl⟩ := List.mem_map.mp hi
  rw [Instruction.resolves_mapLabels, Instruction.fits_mapLabels]
  exact fits j hj

/-- Dropping the result mentions nothing. -/
theorem fits_dropping {call : List (Instruction Empty)} {drop : Bool} {arguments locals : Nat}
    (fits : ∀ i ∈ call, i.Resolves t ∧ i.Fits arguments locals) :
    ∀ i ∈ (Fragment.straight (call ++ if drop then [.pop] else [])).code,
      i.Resolves t ∧ i.Fits arguments locals := by
  refine fits_straight fun i hi => ?_
  rcases List.mem_append.mp hi with hi | hi
  · exact fits i hi
  · cases drop with
    | true =>
      rw [List.mem_singleton.mp hi]
      exact ⟨.of_none rfl rfl rfl, .of_none rfl rfl⟩
    | false => cases hi

namespace Edit

variable {m m₁ : Module} {k callee : MethodId} {value : Literal TypeId}

/-! ## The second stage does not fail -/

/-- A return of a value can be put into a body that was thrown away. -/
theorem exists_append_of_resetBody {push : Instruction InsnId}
    (resolved : value.push m.toTables = .ok push)
    (reset : (resetBody k Body.empty).apply m = (.ok (), m₁)) :
    ∃ ids m₂, (append k [push, .ret]).apply m₁ = (.ok ids, m₂) := by
  obtain ⟨b, hb, rfl⟩ := apply_resetBody_ok.mp reset
  have fresh := Module.body?_withBody_self (m := m.touch k) (b := Body.empty)
    (a := m.arena.releaseAll b.code) hb
  refine ⟨_, _, apply_append_ok.mpr ⟨_, fresh, ?_, rfl, rfl⟩⟩
  intro i hi
  rcases List.mem_pair.mp hi with rfl | rfl
  · obtain ⟨resolves, fits⟩ := Literal.fits_of_push resolved
    have jumps := Literal.targets_of_push resolved
    have methods : m.methods.size ≤ ((m.touch k).withBody k Body.empty
        (m.arena.releaseAll b.code)).methods.size :=
      (Module.size_methods_withBody (m := m.touch k)).ge
    refine ⟨resolves.mono le_rfl methods le_rfl, fits, ?_⟩
    intro l hl
    rw [jumps] at hl
    cases hl
  · exact ⟨.of_none rfl rfl rfl, .of_none rfl rfl, List.forall_mem_nil _⟩

/-- The code that calls a method whose receiver is kept in a new local. -/
def receiverFragment (m : Module) (type : TypeSig) (constructor : MethodId) (slot : UInt16)
    (callee : MethodId) : Fragment :=
  .straight (receiverCall type constructor slot callee ++
    if m.givesValue callee then [.pop] else [])

/-- It can be put into a body that has got the local. -/
theorem exists_splice_of_addLocal {type : TypeSig} {constructor : MethodId} {slot : UInt16}
    (injectable : m.checkInjectable callee = .ok ())
    (receiver : m.receiver? callee = .ok (some (type, constructor)))
    (added : (addLocal k type).apply m = (.ok slot, m₁)) :
    ∃ ids m₂, (splice k 0 (receiverFragment m₁ type constructor slot callee)).apply m₁ =
      (.ok ids, m₂) := by
  obtain ⟨d, hd, -⟩ := Module.checkInjectable_eq_ok.mp injectable
  obtain ⟨-, found, -⟩ := (Module.receiver?_eq_some hd).mp receiver
  obtain ⟨-, e, he, -⟩ := Tables.findParameterlessConstructor_eq_some found
  have hk := Tables.index_lt_of_method? hd
  have hc := Tables.index_lt_of_method? he
  obtain ⟨b, hb, -, small, rfl, rfl⟩ := apply_addLocal_ok.mp added
  have longer := Module.body?_withBody_self (m := m.touch k) (b := b.withLocal type)
    (a := m.arena) hb
  refine ⟨_, _, apply_splice_ok.mpr ⟨_, longer, Nat.zero_le _, ?_, rfl, rfl⟩⟩
  have slot : (UInt16.ofNat b.locals.length).toNat < (b.withLocal type).locals.length := by
    have : maxLocals = 65536 := rfl
    rw [UInt16.toNat_ofNat', LiveBody.withLocal, List.length_append, List.length_singleton]
    omega
  have methods : m.methods.size ≤
      ((m.touch k).withBody k (b.withLocal type) m.arena).methods.size :=
    (Module.size_methods_withBody (m := m.touch k)).ge
  exact fits_dropping (fits_receiverCall (hc.trans_le methods) (hk.trans_le methods) slot)

/-! ## Edits that fail -/

theorem refuses_returnLiteral : (returnLiteral k value).Refuses (some k) := by
  rw [returnLiteral, discard_then]
  refine .check_bind (fun _ => Module.strict_body) fun m b _ => ?_
  refine .check_bind (fun _ _ => .inl rfl) fun _ _ => ?_
  refine .check_bind (fun _ _ => .inl rfl) fun push resolved => ?_
  refine .bind_sure (staged_resetBody.refuses m) fun _ m₁ reset => ?_
  exact exists_append_of_resetBody resolved reset

theorem refuses_injectCall : (injectCall k callee).Refuses (some k) := by
  rw [injectCall_eq, discard_then]
  refine .check_bind (fun _ => Module.strict_body) fun m b _ => ?_
  refine .check_bind (fun _ _ => .inl rfl) fun _ injectable => ?_
  refine .check_bind (fun _ _ => .inl rfl) fun receiver made => ?_
  rcases receiver with _ | ⟨type, constructor⟩
  · exact staged_placeCall.refuses m
  · refine .bind_sure (staged_addLocal.refuses m) fun slot m₁ added => ?_
    rw [apply_placeCall]
    exact exists_splice_of_addLocal injectable made added

end Edit

/-! ## Actions that fail -/

/-- Whatever an action would have done, if it fails it has touched the body that it edits at most.
Copying a body is left out: the copy is checked once the old body is gone. -/
theorem Action.refuses_edit {a : Action} {kept : List Fragment}
    (other : ∀ source target, a ≠ .copyBody source target) :
    (a.edit kept).Refuses a.target? := by
  cases a with
  | addType => exact Edit.staged_addType.refuses.discard
  | addNestedType => exact Edit.staged_addNestedType.refuses.discard
  | addField => exact Edit.staged_addField.refuses.discard
  | addMethod => exact Edit.staged_addMethod.refuses.discard
  | insertAt => exact Edit.staged_insertAt.refuses.discard
  | append => exact Edit.staged_append.refuses.discard
  | removeRange => exact Edit.staged_removeRange.refuses.discard
  | replaceAt => exact Edit.staged_replaceAt.refuses.discard
  | assign => exact Edit.staged_assign.refuses
  | assignAt => exact Edit.staged_assignAt.refuses
  | make => exact Edit.Meets.pure ()
  | lift => exact Edit.Meets.pure ()
  | splice k p number =>
    rw [Action.edit]
    cases kept[number]? with
    | none => exact Edit.Meets.pure ()
    | some f => exact Edit.staged_splice.refuses.discard
  | copyRange => exact Edit.staged_copyRange.refuses.discard
  | pad => exact Edit.staged_pad.refuses.discard
  | addLocal => exact Edit.staged_addLocal.refuses.discard
  | declareMaxStack => exact Edit.staged_declareMaxStack.refuses
  | returnLiteral => exact Edit.refuses_returnLiteral.discard
  | injectCall => exact Edit.refuses_injectCall.discard
  | cloneSignature => exact Edit.staged_cloneSignature.refuses.discard
  | copyBody source target => exact absurd rfl (other source target)

/-- An action that fails, other than copying a body, leaves the module as it was, except that the
body that it was to edit may count as touched. What is done in two stages never fails in the second
one: instructions that return a value can be put into a body that was thrown away for them, and a
call on a new receiver can be put into a body that has got the local for it. -/
theorem failed_edits_change_nothing (m : Module) :
    (∀ (kept : List Fragment) (a : Action) (fault : Fault) (m' : Module),
      (∀ source target, a ≠ .copyBody source target) →
      (a.edit kept).apply m = (.error fault, m') →
        m' = m ∨ ∃ k, a.target? = some k ∧ m' = m.touch k) ∧
    (∀ (k : MethodId) (value : Literal TypeId) (push : Instruction InsnId) (m₁ : Module),
      value.push m.toTables = .ok push →
      (Edit.resetBody k Body.empty).apply m = (.ok (), m₁) →
        ∃ ids m₂, (Edit.append k [push, .ret]).apply m₁ = (.ok ids, m₂)) ∧
    ∀ (k callee constructor : MethodId) (type : TypeSig) (slot : UInt16) (m₁ : Module),
      m.checkInjectable callee = .ok () →
      m.receiver? callee = .ok (some (type, constructor)) →
      (Edit.addLocal k type).apply m = (.ok slot, m₁) →
        ∃ ids m₂, (Edit.splice k 0
          (Edit.receiverFragment m₁ type constructor slot callee)).apply m₁ = (.ok ids, m₂) := by
  refine ⟨?_, ?_, ?_⟩
  · intro kept a fault m' other failed
    exact (Action.refuses_edit other).of_eq failed
  · intro k value push m₁ resolved reset
    exact Edit.exists_append_of_resetBody resolved reset
  · intro k callee constructor type slot m₁ injectable receiver added
    exact Edit.exists_splice_of_addLocal injectable receiver added

namespace Sample

/-- The file of a module whose type can be instantiated and has a method to call on an instance. -/
def instantiable : ModuleFile where
  version := ModuleFile.currentVersion
  name := "sample"
  types := file.types
  fields := #[]
  methods := #[stub "start",
    { stub constructorName with flags := ⟨MethodFlags.visible⟩ },
    { stub "advance" with flags := ⟨MethodFlags.visible⟩ }]

end Sample

/-- An instance: positions that a body does not have cannot be removed, a body that was thrown away
gets a return, and a call of an instance method gets its local and then its code. -/
theorem failed_edits_change_nothing_sample :
    (∃ fault m', ((Action.removeRange ⟨0⟩ 1 1).edit []).apply Sample.instantiable.build =
        (.error fault, m') ∧
      (m' = Sample.instantiable.build ∨ m' = Sample.instantiable.build.touch ⟨0⟩)) ∧
    (∃ m₁, (Edit.resetBody ⟨0⟩ Body.empty).apply Sample.instantiable.build = (.ok (), m₁) ∧
      ∃ ids m₂, (Edit.append ⟨0⟩ [.ldcI4 7, .ret]).apply m₁ = (.ok ids, m₂)) ∧
    ∃ m₁, (Edit.addLocal ⟨0⟩ (.classType ⟨0⟩)).apply Sample.instantiable.build = (.ok 0, m₁) ∧
      ∃ ids m₂, (Edit.splice ⟨0⟩ 0
        (Edit.receiverFragment m₁ (.classType ⟨0⟩) ⟨1⟩ 0 ⟨2⟩)).apply m₁ = (.ok ids, m₂) := by
  have body : Sample.instantiable.build.body? ⟨0⟩ =
      some { (Body.empty : LiveBody) with code := [⟨0⟩] } := by decide +kernel
  obtain ⟨failing, reset, added⟩ := failed_edits_change_nothing Sample.instantiable.build
  refine ⟨?_, ?_, ?_⟩
  · have refused : ((Action.removeRange ⟨0⟩ 1 1).edit []).apply Sample.instantiable.build =
        (.error (.positionOutOfRange "Counter::start" 1 1),
          Sample.instantiable.build.touch ⟨0⟩) := by decide +kernel
    rcases failing [] (.removeRange ⟨0⟩ 1 1) _ _ nofun refused with same | ⟨k, target, touched⟩
    · exact ⟨_, _, refused, .inl same⟩
    · cases target
      exact ⟨_, _, refused, .inr touched⟩
  · obtain ⟨m₁, thrown⟩ : ∃ m₁, (Edit.resetBody ⟨0⟩ Body.empty).apply Sample.instantiable.build =
        (.ok (), m₁) :=
      ⟨_, Edit.apply_resetBody_ok.mpr ⟨_, body, rfl⟩⟩
    exact ⟨m₁, thrown, reset ⟨0⟩ (.int 7) (.ldcI4 7) _ rfl thrown⟩
  · have longer := (Edit.apply_addLocal_ok (s := .classType ⟨0⟩)).mpr
      ⟨_, body, by decide +kernel, by decide, rfl, rfl⟩
    have injectable : Sample.instantiable.build.checkInjectable ⟨2⟩ = .ok () := by decide +kernel
    have receiver : Sample.instantiable.build.receiver? ⟨2⟩ =
        .ok (some (.classType ⟨0⟩, ⟨1⟩)) := by decide +kernel
    exact ⟨_, longer, added ⟨0⟩ ⟨2⟩ ⟨1⟩ _ 0 _ injectable receiver longer⟩

end Graft
