import Graft.Proofs.Arguments
import Graft.Proofs.Refusals
import Graft.Proofs.StraightCode

/-!
# Padding

Padding is straight code, pushes and as many pops, so it needs as many places on top of whatever is
on the stack where control falls into it, and none where control passes it by. It is refused exactly
if it would not fit on top of what the body declares, which is at least as deep as the stack gets
anywhere in a body that verifies.
-/

namespace Graft

open Instruction (Runs)

/-! ## The code -/

section Code

variable {L : Type} {effect : Instruction L → StackEffect} {i : Instruction L}

/-- Pushes, one after another, take the stack up. -/
theorem runs_pushes (falls : i.fallsThrough = true) (pushes : effect i = ⟨0, 1⟩) (n h : Nat) :
    Runs effect (List.replicate n i) h (h + n) (h + n) := by
  induction n generalizing h with
  | zero => exact .nil
  | succ n ih =>
    have rest := ih (h + 1)
    have step := Runs.step pushes falls (Nat.zero_le h) rest
    have same : h + 1 + n = h + (n + 1) := by omega
    rw [same, Nat.max_eq_right (Nat.le_add_right h (n + 1))] at step
    exact step

/-- Pops take it down again. -/
theorem runs_pops (falls : i.fallsThrough = true) (pops : effect i = ⟨1, 0⟩) (n h : Nat) :
    Runs effect (List.replicate n i) (h + n) h (h + n) := by
  induction n with
  | zero => exact .nil
  | succ n ih =>
    have step := Runs.step pops falls (Nat.succ_le_succ (Nat.zero_le (h + n))) ih
    rw [Nat.max_eq_left (Nat.le_succ (h + n))] at step
    exact step

end Code

namespace Fragment

/-- The pushes and pops of padding. -/
def paddingCode (n : Nat) : List (Instruction Empty) :=
  List.replicate n (.ldcI4 0) ++ List.replicate n .pop

theorem padding_eq (n : Nat) : padding n = straight (paddingCode n) := rfl

/-- Padding leaves the stack as deep as it was and needs `n` places more. -/
theorem runs_paddingCode {m : Module} {k : MethodId} (n h : Nat) :
    Runs (m.stackEffect k) (paddingCode n) h h (h + n) := by
  have up : Runs (m.stackEffect k) (List.replicate n (.ldcI4 0 : Instruction Empty)) h (h + n)
      (h + n) := runs_pushes rfl rfl n h
  have down : Runs (m.stackEffect k) (List.replicate n (.pop : Instruction Empty)) (h + n) h
      (h + n) := runs_pops rfl rfl n h
  have both := up.append down
  rwa [Nat.max_self] at both

end Fragment

/-! ## When it fits -/

namespace Module

variable {m m' : Module} {k : MethodId} {b b' : LiveBody} {p n h r : Nat} {ids : List InsnId}

/-- No position that control falls into is deeper than the simulation says. -/
theorem Verified.fallsTo_le (verified : m.Verified k b r) (hb : m.body? k = some b)
    (falls : m.FallsTo k b p h) : h ≤ r := by
  have balanced := balanced_of_simulate hb verified.readable verified.simulate
  have inside := balanced.lt_of_fallsTo falls
  obtain ⟨i, hi⟩ := verified.readable.stored _ (List.getElem_mem inside)
  refine verified.depth_le hb falls.reaches (i := i) ?_
  rw [instructionAt?, List.getElem?_eq_getElem inside]
  exact hi

/-- In a body that verifies the declared depth is the deeper one, so it alone decides. -/
theorem Verified.checkPadding_eq (verified : m.Verified k b r) :
    m.checkPadding k b p n =
      if n ≤ maxDepth - b.maxStack.toNat then .ok ()
      else .error (.stackOverflow (m.methodName k) p) := by
  rw [checkPadding, verified.simulate]
  simp only [Nat.max_eq_right verified.declared]

end Module

namespace Edit

variable {m m' : Module} {k : MethodId} {b b' : LiveBody} {p n h r : Nat} {ids : List InsnId}

/-- Padding either is put in as the fragment that it is, or does not fit. -/
theorem apply_pad (hb : m.body? k = some b) (verified : m.Verified k b r)
    (hp : p ≤ b.code.length) :
    (pad k p n).apply m =
      if n ≤ maxDepth - b.maxStack.toNat then (splice k p (.padding n)).apply (m.touch k)
      else (.error (.stackOverflow (m.methodName k) p), m.touch k) := by
  have position : (m.touch k).checkPosition k b p = .ok () :=
    Module.checkPosition_eq_ok.mpr hp
  have padding : (m.touch k).checkPadding k b p n = m.checkPadding k b p n := rfl
  rw [pad, apply_start_bind, hb]
  dsimp only
  rw [apply_check_bind, position]
  dsimp only
  rw [apply_check_bind, padding, verified.checkPadding_eq]
  by_cases fits : n ≤ maxDepth - b.maxStack.toNat
  · rw [if_pos fits, if_pos fits]
  · rw [if_neg fits, if_neg fits]

theorem splice_of_pad (ok : (pad k p n).apply m = (.ok ids, m')) :
    (splice k p (.padding n)).apply m = (.ok ids, m') := by
  simp only [pad, apply_start_bind_ok, apply_check_bind_ok, apply_splice_touch_ok] at ok
  obtain ⟨b, -, -, -, -, -, ok⟩ := ok
  exact ok

/-- Padding mentions nothing. -/
theorem fits_padding {t : Tables Members LiveBody} {arguments locals : Nat} :
    ∀ i ∈ (Fragment.padding n).code, i.Resolves t ∧ i.Fits arguments locals := by
  rw [Fragment.padding_eq]
  refine fits_straight fun i hi => ?_
  rcases List.mem_append.mp hi with hi | hi
  · rw [List.eq_of_mem_replicate hi]
    exact ⟨.of_none rfl rfl rfl, .of_none rfl rfl⟩
  · rw [List.eq_of_mem_replicate hi]
    exact ⟨.of_none rfl rfl rfl, .of_none rfl rfl⟩

theorem apply_pad_ok (hb : m.body? k = some b) (verified : m.Verified k b r)
    (hp : p ≤ b.code.length) : (pad k p n).apply m = (.ok ids, m') ↔
      n ≤ maxDepth - b.maxStack.toNat ∧ (splice k p (.padding n)).apply m = (.ok ids, m') := by
  rw [apply_pad hb verified hp]
  split
  · rw [apply_splice_touch_ok, and_iff_right ‹_›]
  · exact iff_of_false nofun fun fits => absurd fits.1 ‹_›

theorem exists_pad_iff (hb : m.body? k = some b) (verified : m.Verified k b r)
    (hp : p ≤ b.code.length) :
    (∃ ids m', (pad k p n).apply m = (.ok ids, m')) ↔ n ≤ maxDepth - b.maxStack.toNat := by
  simp only [apply_pad_ok hb verified hp]
  constructor
  · rintro ⟨_, _, fits, -⟩
    exact fits
  · intro fits
    exact ⟨_, _, fits, apply_splice_ok.mpr ⟨b, hb, hp, fits_padding, rfl, rfl⟩⟩

/-- Padding takes a slot for each push and each pop. -/
theorem size_arena_of_pad (hb : m.body? k = some b) (verified : m.Verified k b r)
    (hp : p ≤ b.code.length) (ok : (pad k p n).apply m = (.ok ids, m')) :
    m'.arena.size = m.arena.size + 2 * n := by
  obtain ⟨-, ok⟩ := (apply_pad_ok hb verified hp).mp ok
  obtain ⟨_, -, -, -, -, rfl⟩ := apply_splice_ok.mp ok
  simp [Fragment.instructions, Fragment.padding_eq, Fragment.straight, Fragment.paddingCode]
  omega

end Edit

/-! ## Bodies with padding -/

namespace Module

variable {m m' : Module} {k : MethodId} {b b' : LiveBody} {p n h r : Nat} {ids : List InsnId}

/-- The new body is the old one with padding in front of a position. It verifies with the given
depth, and declares that if it did not declare more before. -/
structure Padded (m m' : Module) (k : MethodId) (p n : Nat) (b b' : LiveBody) (ids : List InsnId)
    (depth : Nat) : Prop where
  code : b'.code = b.code.take p ++ ids ++ b.code.drop p
  interposed : m.Interposed m' k p (Fragment.paddingCode n) b b'
  accepted : m'.verifyBody k = .ok depth
  declared : b'.maxStack.toNat = max b.maxStack.toNat depth

/-- What padding leaves, once it is known with which depth the body simulates. -/
theorem padded_of_splice (linked : m.Linked) (hb : m.body? k = some b)
    (verified : m.Verified k b r) (ok : (Edit.splice k p (.padding n)).apply m = (.ok ids, m'))
    (room : m'.arena.size ≤ Arena.capacity) {depth : Nat}
    (simulates : ∀ b', m'.body? k = some b' → b'.Readable m'.arena →
      m.Interposed m' k p (Fragment.paddingCode n) b b' → m'.simulate k = .ok depth) :
    ∃ b', m'.body? k = some b' ∧ m.Padded m' k p n b b' ids depth := by
  obtain ⟨b', hb', tied', -⟩ := exists_body?_of_edit linked hb (e := .splice p (.padding n))
    (Edit.apply_discard_ok.mpr ⟨ids, ok⟩) room
  obtain ⟨c, hc, code, -⟩ := exists_spliced linked hb ok room
  obtain rfl : b' = c := Option.some.inj (hb'.symm.trans hc)
  have put := interposed_of_splice linked hb ok room hb'
  obtain ⟨verified', declared⟩ := verified_of_splice linked hb verified.sound
    (Fragment.ordered_of_ranges_eq_nil rfl) ok room hb' (simulates b' hb' tied'.readable put)
  exact ⟨b', hb', code, put, verifyBody_eq_ok.mpr ⟨b', hb', verified'⟩, declared⟩

/-- Padding that control falls into needs its places on top of what is on the stack there. -/
theorem padded_of_fallsTo (linked : m.Linked) (hb : m.body? k = some b)
    (verified : m.Verified k b r) (fits : n ≤ maxDepth - b.maxStack.toNat)
    (ok : (Edit.splice k p (.padding n)).apply m = (.ok ids, m'))
    (room : m'.arena.size ≤ Arena.capacity) (falls : m.FallsTo k b p h) :
    ∃ b', m'.body? k = some b' ∧ m.Padded m' k p n b b' ids (max r (h + n)) := by
  have bounded : h + n ≤ maxDepth := by
    have := verified.fallsTo_le hb falls
    have := verified.declared
    have : b.maxStack.toNat ≤ maxDepth := Nat.le_of_lt_succ b.maxStack.toNat_lt
    omega
  refine padded_of_splice linked hb verified ok room fun b' hb' readable' put => ?_
  exact put.simulate_of_fallsTo hb hb' (linked.tied hb).readable readable' verified.simulate falls
    (Fragment.runs_paddingCode n h) bounded

/-- Padding that control passes by needs nothing. -/
theorem padded_of_passed (linked : m.Linked) (hb : m.body? k = some b)
    (verified : m.Verified k b r) (ok : (Edit.splice k p (.padding n)).apply m = (.ok ids, m'))
    (room : m'.arena.size ≤ Arena.capacity) (passed : ∀ h, ¬ m.FallsTo k b p h) :
    ∃ b', m'.body? k = some b' ∧ m.Padded m' k p n b b' ids r := by
  refine padded_of_splice linked hb verified ok room fun b' hb' readable' put => ?_
  exact put.simulate_of_passed hb hb' (linked.tied hb).readable readable' verified.simulate passed

end Module

/-- In a linked module, padding can be put into a body that verifies exactly if it fits on top of
what the body declares, and is refused as too much for the stack otherwise. Whatever is put in, the
body verifies: where control falls into the padding it needs that many places on top of the depth
there, and if control passes the padding by it needs what it needed before. It declares no more than
it did before or needs now. -/
theorem padding_fits_exactly {m : Module} {k : MethodId} {b : LiveBody} {p r : Nat} (n : Nat)
    (linked : m.Linked) (hb : m.body? k = some b) (accepted : m.verifyBody k = .ok r)
    (hp : p ≤ b.code.length) :
    ((∃ ids m', (Edit.pad k p n).apply m = (.ok ids, m')) ↔ n ≤ 65535 - b.maxStack.toNat) ∧
    (¬ n ≤ 65535 - b.maxStack.toNat →
      (Edit.pad k p n).apply m = (.error (.stackOverflow (m.methodName k) p), m.touch k)) ∧
    ∀ ids m', (Edit.pad k p n).apply m = (.ok ids, m') → m'.arena.size ≤ Arena.capacity →
      ∃ b', m'.body? k = some b' ∧
        (∀ h, m.FallsTo k b p h → m.Padded m' k p n b b' ids (max r (h + n))) ∧
        ((∀ h, ¬ m.FallsTo k b p h) → m.Padded m' k p n b b' ids r) := by
  obtain ⟨c, hc, verified⟩ := Module.verifyBody_eq_ok.mp accepted
  obtain rfl : b = c := Option.some.inj (hb.symm.trans hc)
  refine ⟨Edit.exists_pad_iff hb verified hp, fun deep => ?_, fun ids m' ok room => ?_⟩
  · rw [Edit.apply_pad hb verified hp]
    exact if_neg deep
  · obtain ⟨fits, ok⟩ := (Edit.apply_pad_ok hb verified hp).mp ok
    obtain ⟨b', hb', -⟩ := Module.exists_spliced linked hb ok room
    refine ⟨b', hb', fun h falls => ?_, fun passed => ?_⟩
    · obtain ⟨c, hc, padded⟩ := Module.padded_of_fallsTo linked hb verified fits ok room falls
      obtain rfl : b' = c := Option.some.inj (hb'.symm.trans hc)
      exact padded
    · obtain ⟨c, hc, padded⟩ := Module.padded_of_passed linked hb verified ok room passed
      obtain rfl : b' = c := Option.some.inj (hb'.symm.trans hc)
      exact padded

namespace Sample

theorem verifyBody_build : file.build.verifyBody ⟨0⟩ = .ok 1 :=
  Module.verifyBody_eq_ok.mpr ⟨live, body?_build_zero, verified_live⟩

/-- Control jumps to the last instruction but one, which pushes a value, and falls to the last. -/
theorem fallsTo_last : file.build.FallsTo ⟨0⟩ live 5 1 := by
  have first : file.build.Reaches ⟨0⟩ live 0 0 := .enter .first
  have second : file.build.Reaches ⟨0⟩ live 1 0 :=
    first.next (i := .nop) (by decide +kernel) rfl
  have behind : file.build.Reaches ⟨0⟩ live 4 0 :=
    second.jump (i := .leave ⟨4⟩) (l := ⟨4⟩) (by decide +kernel) List.mem_cons_self (by decide)
  exact .next behind (i := .ldcI4 7) (by decide +kernel) rfl

/-- Control leaves the protected region before the handler and does not fall into that. -/
theorem not_fallsTo_handler (h : Nat) : ¬ file.build.FallsTo ⟨0⟩ live 2 h := by
  have stands : file.build.instructionAt? live 1 = some (.leave ⟨4⟩) := by decide +kernel
  intro falls
  cases falls with
  | next _ hi falls =>
    rw [stands] at hi
    cases hi
    cases falls

end Sample

/-- Instances: two places more in front of the return, where there is a value on the stack; none in
front of the handler; and more than a stack can have. -/
theorem padding_fits_exactly_sample :
    (∃ ids m' b', (Edit.pad ⟨0⟩ 5 2).apply Sample.file.build = (.ok ids, m') ∧
      m'.body? ⟨0⟩ = some b' ∧ Sample.file.build.Padded m' ⟨0⟩ 5 2 Sample.live b' ids 3) ∧
    (∃ ids m' b', (Edit.pad ⟨0⟩ 2 2).apply Sample.file.build = (.ok ids, m') ∧
      m'.body? ⟨0⟩ = some b' ∧ Sample.file.build.Padded m' ⟨0⟩ 2 2 Sample.live b' ids 1) ∧
    (Edit.pad ⟨0⟩ 5 65535).apply Sample.file.build =
      (.error (.stackOverflow (Sample.file.build.methodName ⟨0⟩) 5),
        Sample.file.build.touch ⟨0⟩) := by
  have linked := Placement.linked_build Sample.checked Sample.numbered
  have hb := Sample.body?_build_zero
  have accepted := Sample.verifyBody_build
  have room : ∀ p ids m', p ≤ Sample.live.code.length →
      (Edit.pad ⟨0⟩ p 2).apply Sample.file.build = (.ok ids, m') →
        m'.arena.size ≤ Arena.capacity := by
    intro p ids m' hp ok
    rw [Edit.size_arena_of_pad hb Sample.verified_live hp ok]
    decide
  refine ⟨?_, ?_, (padding_fits_exactly 65535 linked hb accepted (p := 5) (by decide)).2.1
    (by decide)⟩
  · obtain ⟨fits, -, padded⟩ := padding_fits_exactly 2 linked hb accepted (p := 5) (by decide)
    obtain ⟨ids, m', ok⟩ := fits.mpr (by decide)
    obtain ⟨b', hb', falls, -⟩ := padded ids m' ok (room 5 ids m' (by decide) ok)
    exact ⟨ids, m', b', ok, hb', falls 1 Sample.fallsTo_last⟩
  · obtain ⟨fits, -, padded⟩ := padding_fits_exactly 2 linked hb accepted (p := 2) (by decide)
    obtain ⟨ids, m', ok⟩ := fits.mpr (by decide)
    obtain ⟨b', hb', -, passed⟩ := padded ids m' ok (room 2 ids m' (by decide) ok)
    exact ⟨ids, m', b', ok, hb', passed Sample.not_fallsTo_handler⟩

end Graft
