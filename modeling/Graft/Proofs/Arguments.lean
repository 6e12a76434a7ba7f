import Graft.Proofs.Commuting
import Graft.Proofs.Paths

/-!
# What calls take off the stack

A call takes the arguments of the callee off the stack, and a construction its parameters. The
simulation counts both in words of 16 bits. A stack is never deeper than such a word can say, so
that in a body that verifies a call finds all that it takes exactly if the count did not wrap
around.
-/

namespace Graft

/-- The number of values that a call of a method takes. A construction makes the receiver. -/
def CallForm.takes {β : Type} (form : CallForm) (d : Method β) : Nat :=
  match form with
  | .construct => d.signature.params.length
  | _ => d.argumentCount

theorem Tables.pops_callEffect {μ β : Type} {t : Tables μ β} {form : CallForm} {callee : MethodId}
    {d : Method β} (hd : t.method? callee = some d) :
    (t.callEffect form callee).pops = form.takes d % countWrap := by
  cases form <;> simp [callEffect, CallForm.takes, hd]

namespace Module

variable {m : Module} {k callee : MethodId} {b : LiveBody} {form : CallForm} {p depth r : Nat}

/-- The instructions of a body that verifies are stored, and what they mention is there. -/
theorem Verified.resolves_instructionAt (h : m.Verified k b r) {i : Instruction InsnId}
    (hi : m.instructionAt? b p = some i) : i.Resolves m.toTables := by
  obtain ⟨id, hid, stored⟩ := Option.bind_eq_some_iff.mp hi
  exact h.sound.resolves id (List.mem_of_getElem? hid) i stored

/-- Nowhere on a path through a body that verifies is the stack deeper than the simulation says. -/
theorem Verified.depth_le (h : m.Verified k b r) (hb : m.body? k = some b)
    {i : Instruction InsnId} (reaches : m.Reaches k b p depth)
    (hi : m.instructionAt? b p = some i) : depth ≤ r :=
  (isGreatest_of_simulate hb h.readable h.simulate).2 ⟨p, depth, i, reaches, hi, .inl rfl⟩

theorem Verified.le_maxDepth (h : m.Verified k b r) : r ≤ maxDepth :=
  h.declared.trans (Nat.le_of_lt_succ b.maxStack.toNat_lt)

/-- A call on a path finds as many values as the simulation counts. -/
theorem Verified.enough (h : m.Verified k b r) (hb : m.body? k = some b)
    (reaches : m.Reaches k b p depth) {i : Instruction InsnId}
    (hi : m.instructionAt? b p = some i) : (m.stackEffect k i).pops ≤ depth :=
  ((balanced_of_simulate hb h.readable h.simulate).runs p depth i reaches hi).enough

end Module

/-- In a body that verifies, every call on a path is of a method that there is, and finds what the
simulation counts on the stack, which is what it takes up to a multiple of `countWrap`. It finds all
that it takes exactly if this is no more than the deepest stack has. -/
theorem call_is_supplied_iff {m : Module} {k : MethodId} {r : Nat}
    (accepted : m.verifyBody k = .ok r) : ∃ b, m.body? k = some b ∧
      ∀ p depth form callee, m.Reaches k b p depth →
        m.instructionAt? b p = some (.call form callee) →
        ∃ d, m.method? callee = some d ∧ depth ≤ r ∧ form.takes d % countWrap ≤ depth ∧
          (form.takes d ≤ depth ↔ form.takes d ≤ maxDepth) := by
  obtain ⟨b, hb, verified⟩ := Module.verifyBody_eq_ok.mp accepted
  refine ⟨b, hb, fun p depth form callee reaches hi => ?_⟩
  have known : callee.index < m.methods.size :=
    (verified.resolves_instructionAt hi).method callee rfl
  have hd : m.method? callee = some m.methods[callee.index] := Array.getElem?_eq_getElem known
  have deepest := verified.depth_le hb reaches hi
  have enough : form.takes m.methods[callee.index] % countWrap ≤ depth := by
    rw [← Tables.pops_callEffect hd]
    exact verified.enough hb reaches hi
  refine ⟨_, hd, deepest, enough, fun le => le.trans (deepest.trans verified.le_maxDepth), ?_⟩
  intro few
  have small : form.takes m.methods[callee.index] < countWrap := Nat.lt_succ_of_le few
  rwa [Nat.mod_eq_of_lt small] at enough

theorem Tables.knows_primitive {μ β : Type} {t : Tables μ β} {s : Primitive} :
    t.Knows (.primitive s) := by
  intro id mentioned
  cases mentioned

namespace Sample

/-- A body that passes one value to the second method. -/
def caller : FileBody :=
  { (Body.empty : FileBody) with maxStack := 1, code := [.ldcI4 7, .call .direct ⟨1⟩, .ret] }

/-- The file of a module with a method of this body and one with `n` parameters. -/
def passing (n : Nat) : ModuleFile :=
  { file with methods := #[
      { stub "start" with body := some caller },
      { stub "stop" with
          signature := ⟨.primitive .void, List.replicate n ⟨"", .primitive .int⟩, []⟩
          body := none }] }

variable {n : Nat}

theorem resolves_caller {μ β : Type} {t : Tables μ β} (two : t.methods.size = 2) :
    ∀ i ∈ caller.code, i.Resolves t := by
  have called : ∀ i ∈ caller.code, i.field? = none ∧ i.type? = none ∧
      ∀ id ∈ i.method?, id.index < 2 := by decide
  intro i hi
  obtain ⟨field, type, method⟩ := called i hi
  exact ⟨by simp [field], fun id hid => two ▸ method id hid, by simp [type]⟩

theorem closed_caller : caller.Closed where
  targets := by
    have straight : ∀ i ∈ caller.code, i.targets = [] := by decide
    intro i hi l hl
    rw [straight i hi] at hl
    cases hl
  markers := List.forall_mem_nil _

theorem check_passing : (passing n).check = .ok () := by
  have lawful : (passing n).Lawful := (ModuleFile.check_eq_ok.mp checked).1.congr rfl rfl
  have names : Tables.requireName "start" = .ok () ∧ Tables.requireName "stop" = .ok () := by
    decide
  refine ModuleFile.check_eq_ok.mpr ⟨lawful, fun d hd => ?_⟩
  have hd : d ∈ [_, _] := Array.mem_toList_iff.mpr hd
  rcases List.mem_pair.mp hd with rfl | rfl
  · refine ⟨⟨Nat.zero_lt_one, Tables.knows_primitive, List.forall_mem_nil _, names.1⟩,
      fun c hc => ?_⟩
    obtain rfl : caller = c := Option.some.inj hc
    exact ⟨⟨resolves_caller rfl, List.forall_mem_nil _, List.forall_mem_nil _, by decide⟩,
      closed_caller⟩
  · refine ⟨⟨Nat.zero_lt_one, Tables.knows_primitive, fun q hq => ?_, names.2⟩, fun c hc => ?_⟩
    · obtain rfl := List.eq_of_mem_replicate hq
      exact Tables.knows_primitive
    · cases hc

theorem numbered_passing : (passing n).build.Numbered := by
  constructor <;> exact Nat.le_of_ble_eq_true rfl

theorem body?_passing : (passing n).build.body? ⟨0⟩ = some (caller.place 0) := rfl

theorem arena_passing : (passing n).build.arena = (passing 0).build.arena := rfl

theorem method?_passing : ∃ d, (passing n).build.method? ⟨1⟩ = some d ∧ d.argumentCount = n := by
  have static : (stub "stop").isStatic = true := by decide
  refine ⟨_, rfl, ?_⟩
  exact (congrArg₂ (· + ·) List.length_replicate (if_pos static)).trans (Nat.add_zero n)

theorem linked_caller : (caller.place 0).Linked (passing n).build.arena :=
  (Placement.linked_build check_passing numbered_passing).bodies ⟨0⟩ _ body?_passing

theorem sound_caller : (caller.place 0).Sound (passing n).build.toTables ⟨0⟩
    (passing n).build.arena where
  toLinked := linked_caller
  resolves _ hid _ hi :=
    Placement.resolves_build check_passing numbered_passing.slots body?_passing hid hi
  fits id hid i hi := by
    have none : ∀ id ∈ (caller.place 0).code, ((passing 0).build.arena.get? id).all fun i =>
        i.loc? = none ∧ i.arg? = none := by decide
    have := none id hid
    rw [← arena_passing, hi, Option.all_some, decide_eq_true_eq] at this
    exact .of_none this.1 this.2
  ordered := List.forall_mem_nil _

/-- One value is enough if the count wraps around to one. -/
theorem simulate_passing (one : n % countWrap = 1) : (passing n).build.simulate ⟨0⟩ = .ok 1 := by
  have load : (passing n).build.stackEffect ⟨0⟩ (.ldcI4 7 : Instruction InsnId) = ⟨0, 1⟩ := rfl
  have call : (passing n).build.stackEffect ⟨0⟩ (.call .direct ⟨1⟩ : Instruction InsnId) =
      ⟨1, 0⟩ := by
    obtain ⟨d, hd, takes⟩ := method?_passing (n := n)
    have pops : ((passing n).build.callEffect .direct ⟨1⟩).pops = 1 := calc
      _ = d.argumentCount % countWrap := Tables.pops_callEffect hd
      _ = 1 := by rw [takes, one]
    exact congrArg₂ StackEffect.mk pops rfl
  have ret : (passing n).build.stackEffect ⟨0⟩ (.ret : Instruction InsnId) = ⟨0, 0⟩ := rfl
  rw [Module.simulate_eq body?_passing linked_caller (List.cons_ne_nil _ _)]
  refine Module.visit_instruction linked_caller (p := 0) (i := .ldcI4 7) (by decide) (by decide) rfl
    rfl (load ▸ by decide) ?_
  rw [load]
  refine Module.visit_instruction linked_caller (p := 1) (i := .call .direct ⟨1⟩) (by decide)
    (by decide) rfl rfl (call ▸ by decide) ?_
  rw [call]
  refine Module.visit_instruction linked_caller (p := 2) (i := .ret) (by decide) (by decide) rfl rfl
    (ret ▸ by decide) ?_
  exact Simulation.visit_nil

theorem verifyBody_passing (one : n % countWrap = 1) :
    (passing n).build.verifyBody ⟨0⟩ = .ok 1 := by
  refine Module.verifyBody_eq_ok.mpr ⟨_, body?_passing, ?_⟩
  constructor
  case filled => exact List.cons_ne_nil _ _
  case owner? =>
    rw [arena_passing]
    decide
  case sound => exact sound_caller
  case simulate => exact simulate_passing one
  case declared => decide

/-- The call is reached with one value on the stack. -/
theorem reaches_call : (passing n).build.Reaches ⟨0⟩ (caller.place 0) 1 1 :=
  .next (.enter .first) (i := .ldcI4 7) rfl rfl

theorem instructionAt?_call :
    (passing n).build.instructionAt? (caller.place 0) 1 = some (.call .direct ⟨1⟩) := rfl

end Sample

/-- An instance: a call that takes the one value that there is. -/
theorem call_is_supplied_iff_sample : ∃ d, (Sample.passing 1).build.method? ⟨1⟩ = some d ∧
    (CallForm.direct.takes d ≤ 1 ↔ CallForm.direct.takes d ≤ maxDepth) := by
  obtain ⟨b, hb, calls⟩ := call_is_supplied_iff (Sample.verifyBody_passing (n := 1) (by decide))
  obtain rfl : Sample.caller.place 0 = b := Option.some.inj (Sample.body?_passing.symm.trans hb)
  obtain ⟨d, hd, -, -, supplied⟩ := calls _ _ _ _ Sample.reaches_call Sample.instructionAt?_call
  exact ⟨d, hd, supplied⟩

/-- A body that verifies, and passes one value to a method that takes one more than can be
counted. -/
theorem call_lacks_arguments :
    (Sample.passing 65537).load = .ok (Sample.passing 65537).build ∧
      (Sample.passing 65537).build.verifyBody ⟨0⟩ = .ok 1 ∧ ∃ b d,
        (Sample.passing 65537).build.body? ⟨0⟩ = some b ∧
        (Sample.passing 65537).build.Reaches ⟨0⟩ b 1 1 ∧
        (Sample.passing 65537).build.instructionAt? b 1 = some (.call .direct ⟨1⟩) ∧
        (Sample.passing 65537).build.method? ⟨1⟩ = some d ∧ d.argumentCount = 65537 := by
  obtain ⟨d, hd, takes⟩ := Sample.method?_passing (n := 65537)
  exact ⟨ModuleFile.load_eq_ok.mpr ⟨Sample.check_passing, rfl⟩,
    Sample.verifyBody_passing (by decide), _, d, Sample.body?_passing, Sample.reaches_call,
    Sample.instructionAt?_call, hd, takes⟩

end Graft
