import Graft.Proofs.Arguments
import Graft.Proofs.Refusals
import Graft.Proofs.StraightCode

/-!
# Injected calls

The call of a method in front of everything else in a body is straight code that needs at most one
place on the stack, for the receiver or the result. Nothing refers to it, so it is executed when the
body is entered, and never again by a loop to what was the first instruction, or by a handler that
starts there. A body that verifies still does.
-/

namespace Graft

open Instruction (Runs)

/-! ## What can be called -/

namespace Tables

variable {β : Type} {t : Tables Members β} {owner : TypeId} {k callee constructor : MethodId}
  {d : Method β}

/-- The type is there and has a constructor that takes nothing but the instance. -/
def Constructible (t : Tables Members β) (owner : TypeId) : Prop :=
  (t.type? owner).isSome ∧ ∃ k ∈ t.methodsOf owner, ∃ d, t.method? k = some d ∧
    d.isConstructor = true ∧ d.signature.params = []

theorem isSome_type?_iff {id : TypeId} :
    (t.type? id).isSome = true ↔ id.index < t.types.size := by
  simp [type?]

theorem givesValue_eq (hd : t.method? callee = some d) :
    t.givesValue callee = ! d.signature.result.isVoid := by
  rw [givesValue, hd, Option.any_some]

/-- What a call does that passes the receiver at most. -/
theorem callEffect_of_params_eq_nil {form : CallForm} (hd : t.method? callee = some d)
    (few : d.signature.params = []) (calls : form ≠ .construct) :
    t.callEffect form callee =
      ⟨if d.isStatic then 0 else 1, if d.signature.result.isVoid then 0 else 1⟩ := by
  have arguments : d.argumentCount = if d.isStatic then 0 else 1 := by
    rw [Method.argumentCount, few, List.length_nil, Nat.zero_add]
  have value : (if t.givesValue callee then 1 else 0) =
      if d.signature.result.isVoid then 0 else 1 := by
    rw [givesValue_eq hd]
    cases d.signature.result.isVoid <;> rfl
  have wraps : (if d.isStatic then 0 else 1) % countWrap = if d.isStatic then 0 else 1 := by
    cases d.isStatic <;> rfl
  cases form with
  | construct => exact absurd rfl calls
  | _ =>
    rw [callEffect, hd, Option.elim_some, arguments, value, wraps]
    exact calls

theorem callEffect_construct (hd : t.method? constructor = some d)
    (few : d.signature.params = []) : t.callEffect .construct constructor = ⟨0, 1⟩ := by
  rw [callEffect, hd, Option.elim_some, few]
  rfl

end Tables

/-! ## The code -/

/-- How deep the stack gets if a method is called on an empty stack and its result is dropped: there
is the receiver on it before, or the result behind. -/
def Method.callDepth {β : Type} (d : Method β) : Nat :=
  if d.isStatic && d.signature.result.isVoid then 0 else 1

theorem Method.max_callDepth {β : Type} {d : Method β} {r : Nat} : max r d.callDepth =
    if d.isStatic = true ∧ d.signature.result.isVoid = true then r else max r 1 := by
  unfold callDepth
  cases d.isStatic <;> cases d.signature.result.isVoid <;> simp

theorem Instruction.mapLabels_eq_call {L L' : Type} {f : L → L'} {i : Instruction L}
    {form : CallForm} {callee : MethodId} : i.mapLabels f = .call form callee ↔
      i = .call form callee := by
  cases i <;> simp [mapLabels]

/-- One of the instructions, and no other, calls the method. -/
def CallsOnce (callee : MethodId) (code : List (Instruction Empty)) : Prop :=
  ∃! j : Nat, ∃ form, code[j]? = some (.call form callee)

theorem CallsOnce.cons {callee : MethodId} {code : List (Instruction Empty)} {i : Instruction Empty}
    (once : CallsOnce callee code) (other : ∀ form, i ≠ .call form callee) :
    CallsOnce callee (i :: code) := by
  obtain ⟨j, here, only⟩ := once
  refine ⟨j + 1, here, ?_⟩
  rintro (_ | j') ⟨form, hj⟩
  · exact absurd (Option.some.inj hj) (other form)
  · rw [only j' ⟨form, hj⟩]

theorem callsOnce_call {callee : MethodId} {form : CallForm} {drop : Bool} :
    CallsOnce callee (.call form callee :: if drop then [.pop] else []) := by
  refine ⟨0, ⟨form, rfl⟩, ?_⟩
  rintro (_ | j) ⟨form', hj⟩
  · rfl
  · have last : (.call form' callee : Instruction Empty) ∈ if drop then [.pop] else [] :=
      List.mem_of_getElem? hj
    cases drop with
    | true => cases List.mem_singleton.mp last
    | false => cases last

theorem callsOnce_receiverCall {type : TypeSig} {constructor callee : MethodId} {slot : UInt16}
    {drop : Bool} (ne : constructor ≠ callee) : CallsOnce callee
      (receiverCall type constructor slot callee ++ if drop then [.pop] else []) := by
  have create : ∀ form, (.call .construct constructor : Instruction Empty) ≠ .call form callee := by
    rintro form same
    cases same
    exact ne rfl
  have keep : ∀ access form, (.loc access slot : Instruction Empty) ≠ .call form callee := nofun
  unfold receiverCall
  split
  · exact ((callsOnce_call.cons (keep _)).cons (keep _)).cons create
  · exact ((callsOnce_call.cons (keep _)).cons (keep _)).cons create

namespace Edit

variable {m m' m₁ : Module} {k callee constructor : MethodId} {b : LiveBody}
  {d e : Method LiveBody} {type : TypeSig} {slot : UInt16} {ids : List InsnId}

/-- The code that calls a static method. -/
def staticFragment (m : Module) (callee : MethodId) : Fragment :=
  .straight (.call .direct callee :: if m.givesValue callee then [.pop] else [])

theorem apply_injectCall_ok :
    (injectCall k callee).apply m = (.ok ids, m') ↔
      (∃ b, m.body? k = some b) ∧ m.checkInjectable callee = .ok () ∧
        (m.receiver? callee = .ok none ∧
            (splice k 0 (staticFragment m callee)).apply m = (.ok ids, m') ∨
          ∃ type constructor slot m₁, m.receiver? callee = .ok (some (type, constructor)) ∧
            (addLocal k type).apply m = (.ok slot, m₁) ∧
            (splice k 0 (receiverFragment m₁ type constructor slot callee)).apply m₁ =
              (.ok ids, m')) := by
  rw [injectCall_eq, discard_then]
  simp only [apply_check_bind_ok, Module.body_eq_ok]
  constructor
  · rintro ⟨b, hb, ⟨⟩, injectable, receiver, made, h⟩
    rcases receiver with _ | ⟨type, constructor⟩
    · rw [apply_placeCall] at h
      exact ⟨⟨b, hb⟩, injectable, .inl ⟨made, h⟩⟩
    · obtain ⟨slot, m₁, added, h⟩ := apply_bind_ok.mp h
      rw [apply_placeCall] at h
      exact ⟨⟨b, hb⟩, injectable, .inr ⟨type, constructor, slot, m₁, made, added, h⟩⟩
  · rintro ⟨⟨b, hb⟩, injectable, ⟨made, h⟩ | ⟨type, constructor, slot, m₁, made, added, h⟩⟩
    · exact ⟨b, hb, (), injectable, none, made, (apply_placeCall _ m).trans h⟩
    · exact ⟨b, hb, (), injectable, _, made,
        apply_bind_ok.mpr ⟨slot, m₁, added, (apply_placeCall _ m₁).trans h⟩⟩

@[simp] theorem length_receiverCall : (receiverCall type constructor slot callee).length = 4 := by
  unfold receiverCall
  split <;> rfl

/-- A call and what belongs to it are five instructions at most. -/
theorem size_arena_of_injectCall (ok : (injectCall k callee).apply m = (.ok ids, m')) :
    m'.arena.size ≤ m.arena.size + 5 := by
  have one : ∀ c : Bool, (if c then [.pop] else [] : List (Instruction Empty)).length ≤ 1 := by
    decide
  obtain ⟨-, -, ⟨-, ok⟩ | ⟨type, constructor, slot, m₁, -, added, ok⟩⟩ := apply_injectCall_ok.mp ok
  · obtain ⟨_, -, -, -, -, rfl⟩ := apply_splice_ok.mp ok
    have drop := one (m.givesValue callee)
    simp only [Module.arena_rebuilt, Arena.size_append, Fragment.instructions, staticFragment,
      Fragment.straight, List.length_map, List.length_cons]
    omega
  · obtain ⟨_, -, -, -, -, grown⟩ := apply_addLocal_ok.mp added
    have same : m₁.arena = m.arena := by rw [grown, Module.arena_withBody]
    obtain ⟨_, -, -, -, -, rfl⟩ := apply_splice_ok.mp ok
    have drop := one (m₁.givesValue callee)
    rw [← same]
    simp only [Module.arena_rebuilt, Arena.size_append, Fragment.instructions, receiverFragment,
      Fragment.straight, List.length_map, List.length_append, length_receiverCall]
    omega

/-- When a call can be put in front of a body. -/
theorem exists_injectCall_iff (hb : m.body? k = some b) :
    (∃ ids m', (injectCall k callee).apply m = (.ok ids, m')) ↔
      ∃ d, m.method? callee = some d ∧ d.signature.params = [] ∧ d.isConstructor = false ∧
        (d.isStatic = true ∨ m.Constructible d.owner ∧ b.locals.length < 65536) := by
  constructor
  · rintro ⟨ids, m', ok⟩
    obtain ⟨-, injectable, receiver⟩ := apply_injectCall_ok.mp ok
    obtain ⟨d, hd, few, other⟩ := Module.checkInjectable_eq_ok.mp injectable
    refine ⟨d, hd, few, other, ?_⟩
    rcases receiver with ⟨made, -⟩ | ⟨type, constructor, slot, m₁, made, added, -⟩
    · exact .inl ((Module.receiver?_eq_none hd).mp made)
    · obtain ⟨-, found, rfl⟩ := (Module.receiver?_eq_some hd).mp made
      obtain ⟨c, hc, known, small, -⟩ := apply_addLocal_ok.mp added
      obtain rfl : b = c := Option.some.inj (hb.symm.trans hc)
      refine .inr ⟨⟨?_, _, Tables.findParameterlessConstructor_eq_some found⟩, small⟩
      exact Tables.isSome_type?_iff.mpr (known d.owner Tables.mentioned?_instanceType)
  · rintro ⟨d, hd, few, other, allowed⟩
    have injectable := Module.checkInjectable_eq_ok.mpr ⟨d, hd, few, other⟩
    have there := Tables.index_lt_of_method? hd
    by_cases static : d.isStatic = true
    · have call : ∀ i ∈ [(.call .direct callee : Instruction Empty)],
          i.Resolves m.toTables ∧ i.Fits (m.argumentCount k) b.locals.length :=
        List.forall_mem_singleton.mpr ⟨Instruction.resolves_call.mpr there, .of_none rfl rfl⟩
      exact ⟨_, _, apply_injectCall_ok.mpr ⟨⟨b, hb⟩, injectable,
        .inl ⟨(Module.receiver?_eq_none hd).mpr static, apply_splice_ok.mpr
          ⟨b, hb, Nat.zero_le _, fits_dropping call, rfl, rfl⟩⟩⟩⟩
    · obtain ⟨⟨known, c, listed, e, he, constructs, none⟩, small⟩ := allowed.resolve_left static
      obtain ⟨constructor, found⟩ :=
        Tables.exists_findParameterlessConstructor listed he constructs none
      have made := (Module.receiver?_eq_some hd).mpr
        ⟨Bool.eq_false_iff.mpr static, found, rfl⟩
      obtain ⟨slot, m₁, added⟩ : ∃ slot m₁,
          (addLocal k (m.instanceType d.owner)).apply m = (.ok slot, m₁) := by
        refine ⟨_, _, apply_addLocal_ok.mpr ⟨b, hb, fun id mentioned => ?_, small, rfl, rfl⟩⟩
        rw [Tables.mentioned?_instanceType] at mentioned
        cases mentioned
        exact Tables.isSome_type?_iff.mp known
      obtain ⟨ids, m', ok⟩ := exists_splice_of_addLocal injectable made added
      exact ⟨ids, m', apply_injectCall_ok.mpr ⟨⟨b, hb⟩, injectable,
        .inr ⟨_, _, _, _, made, added, ok⟩⟩⟩

/-! ## What the code needs -/

/-- A call that is entered with its receiver on the stack, if it has one, and the drop of its result
leave nothing behind. -/
theorem runs_call (form : CallForm) (calls : form ≠ .construct)
    (hd : m.method? callee = some d) (few : d.signature.params = []) :
    Runs (L := Empty) (m.stackEffect k)
      (.call form callee :: if m.givesValue callee then [.pop] else [])
      (if d.isStatic then 0 else 1) 0 d.callDepth := by
  have call : m.stackEffect k (.call form callee : Instruction Empty) =
      ⟨if d.isStatic then 0 else 1, if d.signature.result.isVoid then 0 else 1⟩ :=
    Tables.callEffect_of_params_eq_nil hd few calls
  rw [Tables.givesValue_eq hd, Method.callDepth]
  cases static : d.isStatic <;> cases void : d.signature.result.isVoid <;>
    rw [static, void] at call
  case true.true | false.true => exact .step call rfl le_rfl .nil
  case true.false | false.false =>
    exact .step call rfl le_rfl (.step (i := .pop) rfl rfl le_rfl .nil)

/-- The receiver is made and kept before the call. -/
theorem runs_receiverCall (type : TypeSig) (slot : UInt16) (hd : m.method? callee = some d)
    (few : d.signature.params = []) (other : d.isStatic = false)
    (he : m.method? constructor = some e) (none : e.signature.params = []) :
    Runs (m.stackEffect k) (receiverCall type constructor slot callee ++
      if m.givesValue callee then [.pop] else []) 0 0 d.callDepth := by
  have create : m.stackEffect k (.call .construct constructor : Instruction Empty) = ⟨0, 1⟩ :=
    Tables.callEffect_construct he none
  have rest : ∀ form, form ≠ .construct → Runs (L := Empty) (m.stackEffect k)
      (.call form callee :: if m.givesValue callee then [.pop] else []) 1 0 1 := by
    intro form calls
    have runs := runs_call (k := k) form calls hd few
    rwa [Method.callDepth, other] at runs
  rw [Method.callDepth, other]
  unfold receiverCall
  split
  · exact .step create rfl le_rfl (.step (i := .loc .store slot) rfl rfl le_rfl
      (.step (i := .loc .loadAddress slot) rfl rfl (Nat.zero_le _) (rest .direct nofun)))
  · exact .step create rfl le_rfl (.step (i := .loc .store slot) rfl rfl le_rfl
      (.step (i := .loc .load slot) rfl rfl (Nat.zero_le _) (rest .virtual nofun)))

end Edit

/-! ## Bodies with another local -/

namespace Module

variable {m m' : Module} {k callee : MethodId} {b : LiveBody} {s : TypeSig} {ids : List InsnId}
  {r peak : Nat} {code : List (Instruction Empty)}

theorem Linked.withLocal (linked : m.Linked) (hb : m.body? k = some b) :
    ((m.touch k).withBody k (b.withLocal s) m.arena).Linked := by
  have new : LiveBody.Tied k m.arena (b.withLocal s) := (linked.tied hb).of_code_eq rfl rfl
  exact (linked.touch (k := k)).withBody hb (.refl k m.arena) new

/-- A body that verifies does so with another local. -/
theorem Verified.withLocal (verified : m.Verified k b r) (linked : m.Linked)
    (hb : m.body? k = some b) :
    ((m.touch k).withBody k (b.withLocal s) m.arena).Verified k (b.withLocal s) r := by
  have tied := linked.tied hb
  have hb₁ : ((m.touch k).withBody k (b.withLocal s) m.arena).body? k = some (b.withLocal s) :=
    body?_withBody_self (m := m.touch k) hb
  have tied₁ := (linked.withLocal (s := s) hb).tied hb₁
  have same : ((m.touch k).withBody k (b.withLocal s) m.arena).declarations = m.declarations :=
    declarations_withBody
  have methods : m.methods.size ≤
      ((m.touch k).withBody k (b.withLocal s) m.arena).methods.size :=
    (size_methods_withBody (m := m.touch k)).ge
  have owned : b.Owned m.toTables k m.arena := ⟨verified.sound, tied.owner_iff⟩
  refine ⟨verified.filled, verified.owner?, ?_, ?_, verified.declared⟩
  · exact (owned.addLocal s).toSound.congr le_rfl methods le_rfl
      (Tables.argumentCount_of_declarations same) fun _ _ => rfl
  · exact simulate_eq_ok_of_view hb tied.readable hb₁ tied₁.readable rfl rfl
      (fun i _ => Tables.stackEffect_of_outline (Tables.outline_of_declarations same))
      verified.simulate

/-! ## The body with the call -/

/-- The new body is the old one with new instructions in front, one of which calls the method.
Nothing refers to them, and all other instructions are what they were. The body verifies with the
given depth and declares no more than it did before or needs now. -/
structure Injected (m m' : Module) (target callee : MethodId) (b b' : LiveBody) (ids : List InsnId)
    (depth : Nat) : Prop where
  code : b'.code = ids ++ b.code
  unused : ∀ id ∈ ids, m.arena.slot? id = none
  kept : ∀ id s, m.arena.slot? id = some s → m'.arena.slot? id = some s
  once : ∃! id, id ∈ ids ∧ ∃ form, m'.instruction? id = some (.call form callee)
  targets : ∀ id ∈ b'.code, ∀ i, m'.instruction? id = some i → ∀ l ∈ i.targets, l ∉ ids
  markers : ∀ rg ∈ b'.ranges, ∀ l ∈ rg.markers, l ∉ ids
  accepted : m'.verifyBody target = .ok depth
  declared : b'.maxStack.toNat = max b.maxStack.toNat depth

/-- If straight code calls a method once, so do its handles. -/
theorem Interposed.callsOnce {b' : LiveBody} (put : m.Interposed m' k 0 code b b')
    (front : b'.code = ids ++ b.code) (once : CallsOnce callee code) :
    ∃! id, id ∈ ids ∧ ∃ form, m'.instruction? id = some (.call form callee) := by
  have length : ids.length = code.length := by
    have total := put.length
    rw [front, List.length_append] at total
    omega
  have stands : ∀ {j : Nat} {id : InsnId}, ids[j]? = some id → ∀ form,
      m'.instruction? id = some (.call form callee) ↔ code[j]? = some (.call form callee) := by
    intro j id hid form
    have inside := (List.getElem?_eq_some_iff.mp hid).1
    have hj : j < code.length := length ▸ inside
    have here : m'.instructionAt? b' (0 + j) = m'.instruction? id := by
      rw [instructionAt?, front, Nat.zero_add, List.getElem?_append_left inside, hid]
      rfl
    rw [← here, put.new j _ (List.getElem?_eq_getElem hj), List.getElem?_eq_getElem hj,
      Option.some.injEq, Option.some.injEq, Instruction.mapLabels_eq_call]
  obtain ⟨j, ⟨form, hj⟩, only⟩ := once
  have inside : j < ids.length := length ▸ (List.getElem?_eq_some_iff.mp hj).1
  refine ⟨ids[j], ⟨List.getElem_mem inside, form, ?_⟩, ?_⟩
  · exact (stands (List.getElem?_eq_getElem inside) form).mpr hj
  · rintro id ⟨hid, form', calls⟩
    obtain ⟨j', hj', rfl⟩ := List.mem_iff_getElem.mp hid
    obtain rfl := only j' ⟨form', (stands (List.getElem?_eq_getElem hj') form').mp calls⟩
    rfl

/-- Straight code in front of a body that verifies, if it leaves nothing on the stack. -/
theorem injected_of_splice (linked : m.Linked) (hb : m.body? k = some b)
    (verified : m.Verified k b r) (ok : (Edit.splice k 0 (.straight code)).apply m = (.ok ids, m'))
    (room : m'.arena.size ≤ Arena.capacity) (runs : Runs (m.stackEffect k) code 0 0 peak)
    (bounded : peak ≤ maxDepth) (once : CallsOnce callee code) :
    ∃ b', m'.body? k = some b' ∧ m.Injected m' k callee b b' ids (max r peak) := by
  have inserted := Edit.inserted_of_splice linked room ok
  obtain ⟨b', hb', tied', -⟩ := exists_body?_of_edit linked hb (e := .splice 0 (.straight code))
    (Edit.apply_discard_ok.mpr ⟨ids, ok⟩) room
  obtain ⟨c, hc, front, -⟩ := exists_spliced linked hb ok room
  obtain rfl : b' = c := Option.some.inj (hb'.symm.trans hc)
  have put := interposed_of_splice linked hb ok room hb'
  have hs := put.simulate_of_fallsTo hb hb' (linked.tied hb).readable tied'.readable
    verified.simulate .first runs bounded
  obtain ⟨verified', declared⟩ := verified_of_splice linked hb verified.sound
    (Fragment.ordered_of_ranges_eq_nil rfl) ok room hb' hs
  have own : ∀ l ∈ b.code, l ∉ ids := fun l hl hid => inserted.elsewhere k b hb l hid hl
  refine ⟨b', hb', ⟨front, inserted.unused, fun id s known => ?_,
    put.callsOnce front once, fun id hid i hi l hl => own l ?_, fun rg hr l hl => own l ?_,
    verifyBody_eq_ok.mpr ⟨b', hb', verified'⟩, declared⟩⟩
  · obtain ⟨-, -, -, -, -, rfl⟩ := Edit.apply_splice_ok.mp ok
    rw [arena_rebuilt, Arena.slot?_append_of_lt (Arena.index_lt_size_of_slot? known), known]
  · obtain ⟨x, hx⟩ := List.mem_iff_getElem?.mp hid
    refine put.mem_of_target (x := x) (linked.bodies k b hb) ?_ hl
    rw [instructionAt?, hx]
    exact hi
  · rw [put.ranges] at hr
    exact (linked.bodies k b hb).markers rg hr l hl

/-- Whatever call is injected. -/
theorem injected_of_injectCall (linked : m.Linked) (hb : m.body? k = some b)
    (verified : m.Verified k b r) (ok : (Edit.injectCall k callee).apply m = (.ok ids, m'))
    (room : m'.arena.size ≤ Arena.capacity) : ∃ d b', m.method? callee = some d ∧
      m'.body? k = some b' ∧ m.Injected m' k callee b b' ids (max r d.callDepth) := by
  obtain ⟨-, injectable, receiver⟩ := Edit.apply_injectCall_ok.mp ok
  obtain ⟨d, hd, few, other⟩ := checkInjectable_eq_ok.mp injectable
  have bounded : d.callDepth ≤ maxDepth := by
    rw [Method.callDepth]
    split <;> decide
  refine ⟨d, ?_⟩
  rcases receiver with ⟨made, ok⟩ | ⟨type, constructor, slot, m₁, made, added, ok⟩
  · have static := (receiver?_eq_none hd).mp made
    have runs := Edit.runs_call (k := k) .direct nofun hd few
    rw [if_pos static] at runs
    obtain ⟨b', hb', injected⟩ := injected_of_splice linked hb verified ok room runs bounded
      callsOnce_call
    exact ⟨b', hd, hb', injected⟩
  · obtain ⟨static, found, -⟩ := (receiver?_eq_some hd).mp made
    obtain ⟨-, e, he, constructs, none⟩ := Tables.findParameterlessConstructor_eq_some found
    obtain ⟨c, hc, -, -, -, rfl⟩ := Edit.apply_addLocal_ok.mp added
    obtain rfl : b = c := Option.some.inj (hb.symm.trans hc)
    have same : ((m.touch k).withBody k (b.withLocal type) m.arena).outline = m.outline :=
      Tables.outline_of_declarations declarations_withBody
    have effect : ((m.touch k).withBody k (b.withLocal type) m.arena).stackEffect k =
        m.stackEffect (L := Empty) k := funext fun i => Tables.stackEffect_of_outline same
    have runs := Edit.runs_receiverCall (k := k) type slot hd few static he none
    rw [← effect, ← Tables.givesValue_of_outline same] at runs
    have ne : constructor ≠ callee := by
      rintro rfl
      obtain rfl := Option.some.inj (he.symm.trans hd)
      cases constructs.symm.trans other
    have hb₁ : ((m.touch k).withBody k (b.withLocal type) m.arena).body? k =
        some (b.withLocal type) := body?_withBody_self (m := m.touch k) hb
    obtain ⟨b', hb', injected⟩ := injected_of_splice (linked.withLocal hb) hb₁
      (verified.withLocal linked hb) ok room runs bounded (callsOnce_receiverCall ne)
    exact ⟨b', hd, hb', injected.code, injected.unused, injected.kept, injected.once,
      injected.targets, injected.markers, injected.accepted, injected.declared⟩

end Module

/-- In a linked module, a call of a method that is put in front of a body that verifies consists of
new instructions, which nothing refers to, and leaves a body that verifies. The body needs a place
on the stack that it did not need before only if it needed none, and the method takes a receiver or
gives a value. A method can be called so exactly if it has no parameters and is not a constructor,
and if it is static, or there is a constructor for the receiver and the body can have another
local. -/
theorem injected_call_runs_once {m : Module} {target callee : MethodId} {b : LiveBody} {r : Nat}
    (linked : m.Linked) (hb : m.body? target = some b) (accepted : m.verifyBody target = .ok r) :
    (∀ ids m', (Edit.injectCall target callee).apply m = (.ok ids, m') →
      m'.arena.size ≤ Arena.capacity → ∃ d b', m.method? callee = some d ∧
        m'.body? target = some b' ∧ m.Injected m' target callee b b' ids
          (if d.isStatic = true ∧ d.signature.result.isVoid = true then r else max r 1)) ∧
    ((∃ ids m', (Edit.injectCall target callee).apply m = (.ok ids, m')) ↔
      ∃ d, m.method? callee = some d ∧ d.signature.params = [] ∧ d.isConstructor = false ∧
        (d.isStatic = true ∨ m.Constructible d.owner ∧ b.locals.length < 65536)) := by
  obtain ⟨c, hc, verified⟩ := Module.verifyBody_eq_ok.mp accepted
  obtain rfl : b = c := Option.some.inj (hb.symm.trans hc)
  refine ⟨fun ids m' ok room => ?_, Edit.exists_injectCall_iff hb⟩
  obtain ⟨d, b', hd, hb', injected⟩ :=
    Module.injected_of_injectCall linked hb verified ok room
  rw [Method.max_callDepth] at injected
  exact ⟨d, b', hd, hb', injected⟩

namespace Sample

/-- A protected region at the start of the body, and a handler that goes back there. -/
def retryBody : FileBody where
  maxStack := 1
  initLocals := false
  locals := []
  code := [.nop, .leave 4, .pop, .leave 0, .ret]
  ranges := [⟨.catching (.primitive .object), 0, 1, 2, 3⟩]

/-- The module that can be instantiated, with this body for its first method. -/
def retrying : ModuleFile := instantiable.setBody ⟨0⟩ retryBody

/-- The body once the file is loaded. -/
def starting : LiveBody := retryBody.place 0

theorem check_retrying : retrying.check = .ok () := by decide +kernel

theorem numbered_retrying : retrying.build.Numbered := by constructor <;> decide +kernel

theorem body?_retrying : retrying.build.body? ⟨0⟩ = some starting := by decide +kernel

theorem linked_retrying : retrying.build.Linked :=
  Placement.linked_build check_retrying numbered_retrying

theorem linked_starting : starting.Linked retrying.build.arena :=
  linked_retrying.bodies ⟨0⟩ starting body?_retrying

theorem sound_starting : starting.Sound retrying.build.toTables ⟨0⟩ retrying.build.arena where
  toLinked := linked_starting
  resolves _ hid _ hi :=
    Placement.resolves_build check_retrying numbered_retrying.slots body?_retrying hid hi
  fits id hid i hi := by
    have none : ∀ id ∈ starting.code, (retrying.build.arena.get? id).all fun i =>
        i.loc? = none ∧ i.arg? = none := by decide +kernel
    have := none id hid
    simp only [hi, Option.all_some, decide_eq_true_eq] at this
    exact ⟨by simp [this.1], by simp [this.2]⟩
  ordered r hr := by
    obtain rfl := List.mem_singleton.mp hr
    constructor <;> decide

/-- The handler comes first; it goes back to the start, from where the return is reached. -/
theorem simulate_retrying : retrying.build.simulate ⟨0⟩ = .ok 1 := by
  rw [Module.simulate_eq body?_retrying linked_starting (by decide)]
  refine Module.visit_instruction linked_starting (p := 2) (i := .pop) (by decide) (by decide) rfl
    (by decide +kernel) (by decide +kernel) ?_
  refine Module.visit_instruction linked_starting (p := 3) (i := .leave (.ofIndex 0)) (by decide)
    (by decide) rfl (by decide +kernel) (by decide +kernel) ?_
  refine Module.visit_instruction linked_starting (p := 0) (i := .nop) (by decide) (by decide) rfl
    (by decide +kernel) (by decide +kernel) ?_
  refine Module.visit_instruction linked_starting (p := 1) (i := .leave (.ofIndex 4)) (by decide)
    (by decide) rfl (by decide +kernel) (by decide +kernel) ?_
  refine Module.visit_instruction linked_starting (p := 4) (i := .ret) (by decide) (by decide) rfl
    (by decide +kernel) (by decide +kernel) ?_
  exact (Simulation.visit_known (p := 0) (by decide) rfl).trans (Simulation.visit_nil.trans rfl)

theorem verified_starting : retrying.build.Verified ⟨0⟩ starting 1 :=
  ⟨by decide, by decide +kernel, sound_starting, simulate_retrying, by decide⟩

end Sample

/-- An instance: a call of an instance method on a new instance goes in front of a body whose first
instruction starts a protected region, and to which the handler goes back. -/
theorem injected_call_runs_once_sample : ∃ ids m' b',
    (Edit.injectCall ⟨0⟩ ⟨2⟩).apply Sample.retrying.build = (.ok ids, m') ∧
      m'.body? ⟨0⟩ = some b' ∧
      Sample.retrying.build.Injected m' ⟨0⟩ ⟨2⟩ Sample.starting b' ids 1 := by
  have accepted := Module.verifyBody_eq_ok.mpr
    ⟨_, Sample.body?_retrying, Sample.verified_starting⟩
  have linked := Sample.linked_retrying
  have constructible : Sample.retrying.build.Constructible ⟨0⟩ :=
    ⟨by decide +kernel, ⟨1⟩, by decide +kernel, _, rfl, by decide +kernel⟩
  obtain ⟨ids, m', ok⟩ : ∃ ids m',
      (Edit.injectCall ⟨0⟩ ⟨2⟩).apply Sample.retrying.build = (.ok ids, m') :=
    (injected_call_runs_once linked Sample.body?_retrying accepted).2.mpr
      ⟨_, rfl, by decide +kernel, by decide +kernel, .inr ⟨constructible, by decide⟩⟩
  have room : m'.arena.size ≤ Arena.capacity :=
    (Edit.size_arena_of_injectCall ok).trans (by decide +kernel)
  obtain ⟨d, b', hd, hb', injected⟩ :=
    (injected_call_runs_once linked Sample.body?_retrying accepted).1 ids m' ok room
  cases hd
  exact ⟨ids, m', b', ok, hb', injected⟩

end Graft
