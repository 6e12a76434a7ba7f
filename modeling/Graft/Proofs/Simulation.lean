import Graft.Proofs.Soundness
import Graft.Proofs.View
import Graft.Stack

/-!
# Simulation by position

What one step of the simulation does in a linked body is read off the instruction alone: the depth
that it leaves, and its successors. A search depends on nothing but these steps, so machines that
take the same steps find the same depth.
-/

namespace Graft

/-! ## Searches -/

namespace Simulation

variable {machine machine' : Machine} {clash clash' : Nat → Nat → Nat → Fault}
  {depths : Array (Option Nat)} {deepest depth after p r : Nat}
  {pending following : List (Nat × Nat)}

theorem visit_nil : visit machine clash depths deepest [] = .ok deepest := by
  rw [visit]

/-- A position that was visited before, with the same depth. -/
theorem visit_known (hp : p < depths.size) (known : depths[p] = some depth) :
    visit machine clash depths deepest ((p, depth) :: pending) =
      visit machine clash depths deepest pending := by
  rw [visit.eq_def]
  simp only [hp, dif_pos]
  split
  · rename_i expected h
    obtain rfl : depth = expected := Option.some.inj (known.symm.trans h)
    rw [if_pos rfl]
  · rename_i h
    cases known.symm.trans h

/-- A position that was not visited before. -/
theorem visit_new (hp : p < depths.size) (fresh : depths[p] = none)
    (step : machine p depth = .ok (after, following)) :
    visit machine clash depths deepest ((p, depth) :: pending) =
      visit machine clash (depths.set p (some depth)) (max deepest (max depth after))
        (following.reverse ++ pending) := by
  rw [visit.eq_def]
  simp only [hp, dif_pos]
  split
  · rename_i expected h
    cases fresh.symm.trans h
  · simp only [step]

theorem visit_outside (hp : ¬ p < depths.size) :
    visit machine clash depths deepest ((p, depth) :: pending) =
      visit machine clash depths deepest pending := by
  rw [visit.eq_def]
  simp only [hp, dif_neg, not_false_eq_true]

/-- A position that was visited before, with another depth. -/
theorem visit_clash {expected : Nat} (hp : p < depths.size) (known : depths[p] = some expected)
    (other : expected ≠ depth) :
    visit machine clash depths deepest ((p, depth) :: pending) =
      .error (clash p expected depth) := by
  rw [visit.eq_def]
  simp only [hp, dif_pos]
  split
  · rename_i expected' h
    obtain rfl : expected = expected' := Option.some.inj (known.symm.trans h)
    rw [if_neg other]
  · rename_i h
    cases known.symm.trans h

/-- A position where the machine cannot go on. -/
theorem visit_stuck {fault : Fault} (hp : p < depths.size) (fresh : depths[p] = none)
    (step : machine p depth = .error fault) :
    visit machine clash depths deepest ((p, depth) :: pending) = .error fault := by
  rw [visit.eq_def]
  simp only [hp, dif_pos]
  split
  · rename_i expected h
    cases fresh.symm.trans h
  · simp only [step]

/-- Machines that take the same steps inside find the same and fail for the same reasons. -/
theorem visit_congr (same : ∀ p d, p < depths.size → machine' p d = machine p d) :
    visit machine' clash depths deepest pending = visit machine clash depths deepest pending := by
  fun_induction visit machine clash depths deepest pending with
  | case1 => exact visit_nil
  | case2 depths deepest p pending hp depth known ih =>
    rw [visit_known hp known]
    exact ih same
  | case3 depths deepest p depth pending hp expected known other =>
    exact visit_clash hp known other
  | case4 depths deepest p depth pending hp fresh fault step =>
    exact visit_stuck hp fresh ((same p depth hp).trans step)
  | case5 depths deepest p depth pending hp fresh after following step ih =>
    rw [visit_new hp fresh ((same p depth hp).trans step)]
    exact ih fun q d hq => same q d (by simpa using hq)
  | case6 depths deepest p depth pending hp ih =>
    rw [visit_outside hp]
    exact ih same

/-- What a search finds is found by any machine that takes the same steps inside. -/
theorem visit_eq_ok_of_steps
    (h : ∀ p d out, p < depths.size → machine p d = .ok out → machine' p d = .ok out)
    (hv : visit machine clash depths deepest pending = .ok r) :
    visit machine' clash' depths deepest pending = .ok r := by
  fun_induction visit machine clash depths deepest pending with
  | case1 => rw [visit_nil, hv]
  | case2 depths deepest p pending hp depth known ih =>
    rw [visit_known hp known]
    exact ih h hv
  | case3 => cases hv
  | case4 => cases hv
  | case5 depths deepest p depth pending hp fresh after following step ih =>
    rw [visit_new hp fresh (h p depth _ hp step)]
    exact ih (fun q d out hq => h q d out (by simpa using hq)) hv
  | case6 depths deepest p depth pending hp ih =>
    rw [visit_outside hp]
    exact ih h hv

end Simulation

/-! ## Steps -/

namespace Instruction

variable {L : Type}

/-- The depth after an instruction, before the stack is emptied. -/
def after (effect : StackEffect) (depth : Nat) : Nat := depth - effect.pops + effect.pushes

/-- The depth that goes on to the successors. -/
def left (effect : StackEffect) (depth : Nat) (i : Instruction L) : Nat :=
  if i.emptiesStack then 0 else after effect depth

/-- Where control goes from a position, and with which depth, jump targets first. -/
def successors (place : L → Nat) (effect : StackEffect) (p depth : Nat) (i : Instruction L) :
    List (Nat × Nat) :=
  i.targets.map (fun l => (place l, i.left effect depth)) ++
    if i.fallsThrough then [(p + 1, i.left effect depth)] else []

/-- The instruction can be executed at a position with a stack of the given depth. -/
structure Executable (effect : StackEffect) (length p depth : Nat) (i : Instruction L) : Prop where
  enough : effect.pops ≤ depth
  bounded : after effect depth ≤ maxDepth
  inside : i.fallsThrough = true → p + 1 < length

instance (effect : StackEffect) (length p depth : Nat) (i : Instruction L) :
    Decidable (i.Executable effect length p depth) :=
  decidable_of_iff (effect.pops ≤ depth ∧ after effect depth ≤ maxDepth ∧
    (i.fallsThrough = true → p + 1 < length))
    ⟨fun h => ⟨h.1, h.2.1, h.2.2⟩, fun h => ⟨h.enough, h.bounded, h.inside⟩⟩

end Instruction

namespace LiveBody

/-- Where control enters a body, and with which depths. -/
def entries (b : LiveBody) : List (Nat × Nat) :=
  (0, 0) :: b.ranges.flatMap fun r => r.entryPoints.map fun e => (b.code.idxOf e.1, e.2)

end LiveBody

namespace Module

variable {m : Module} {k : MethodId} {b : LiveBody} {p depth : Nat}

/-- The steps of the simulation. -/
theorem stackStep_eq_ok (h : b.Linked m.arena) (hp : p < b.code.length)
    {out : Nat × List (Nat × Nat)} :
    m.stackStep k b.code.toArray (.ofList b.code) p depth = .ok out ↔
      ∃ i, m.arena.get? b.code[p] = some i ∧
        i.Executable (m.stackEffect k i) b.code.length p depth ∧
        out = (Instruction.after (m.stackEffect k i) depth,
          i.successors b.code.idxOf (m.stackEffect k i) p depth) := by
  have handle : b.code.toArray.getD p default = b.code[p] := by simp [Array.getD, hp]
  unfold stackStep
  simp only [handle]
  rw [instruction?]
  cases hi : m.arena.get? b.code[p] with
  | none => simp [throw, throwThe, MonadExceptOf.throw]
  | some i =>
    have found : ∀ l ∈ i.targets, (Positions.ofList b.code).find? l = some (b.code.idxOf l) := by
      intro l hl
      rw [Positions.find?_eq h.nodup, if_pos (h.targets _ (List.getElem_mem hp) i hi l hl)]
    simp only [Option.some.injEq, exists_eq_left']
    generalize m.stackEffect k i = effect
    rw [refuse_eq_ok, refuse_eq_ok, Nat.not_lt, Nat.not_lt, ← Instruction.after,
      ← Instruction.left,
      mapM_eq_ok_map (g := fun l => (b.code.idxOf l, i.left effect depth))
        fun l hl => by simp only [found l hl]]
    have parts : i.Executable effect b.code.length p depth ↔ effect.pops ≤ depth ∧
        Instruction.after effect depth ≤ maxDepth ∧
          (i.fallsThrough = true → p + 1 < b.code.length) := by
      constructor
      · rintro ⟨enough, bounded, inside⟩
        exact ⟨enough, bounded, inside⟩
      · rintro ⟨enough, bounded, inside⟩
        exact ⟨enough, bounded, inside⟩
    rw [parts, and_assoc, and_assoc, Instruction.successors]
    refine and_congr_right' (and_congr_right' ?_)
    cases i.fallsThrough with
    | false => simp [bind, Except.bind, pure, Except.pure, eq_comm]
    | true =>
      refine refuse_eq_ok.trans ?_
      simp [pure, Except.pure, eq_comm]

/-- The search goes through an instruction that it has not reached before. -/
theorem visit_instruction (h : b.Linked m.arena) {clash : Nat → Nat → Nat → Fault}
    {depths : Array (Option Nat)} {deepest r : Nat} {pending : List (Nat × Nat)}
    {i : Instruction InsnId} (hp : p < b.code.length) (inside : p < depths.size)
    (fresh : depths[p] = none) (hi : m.arena.get? b.code[p] = some i)
    (runs : i.Executable (m.stackEffect k i) b.code.length p depth)
    (rest : Simulation.visit (m.stackStep k b.code.toArray (.ofList b.code)) clash
      (depths.set p (some depth))
      (max deepest (max depth (Instruction.after (m.stackEffect k i) depth)))
      ((i.successors b.code.idxOf (m.stackEffect k i) p depth).reverse ++ pending) = .ok r) :
    Simulation.visit (m.stackStep k b.code.toArray (.ofList b.code)) clash depths deepest
      ((p, depth) :: pending) = .ok r := by
  rw [Simulation.visit_new inside fresh ((stackStep_eq_ok h hp).mpr ⟨i, hi, runs, rfl⟩)]
  exact rest

theorem rangeEntries_eq (h : b.Linked m.arena) :
    m.rangeEntries k (.ofList b.code) b = .ok b.entries.tail := by
  have found : ∀ r ∈ b.ranges, ∀ e ∈ r.entryPoints,
      (Positions.ofList b.code).find? e.1 = some (b.code.idxOf e.1) := by
    intro r hr e he
    have hm := h.markers r hr e.1 (ExceptionRange.mem_markers_of_mem_entryPoints he)
    rw [Positions.find?_eq h.nodup, if_pos hm]
  rw [LiveBody.entries, List.tail_cons, List.flatMap_def]
  refine bind_eq_ok.mpr ⟨_, mapM_zipIdx_eq_ok_map fun p r hr => ?_, rfl⟩
  refine mapM_eq_ok_map fun e he => ?_
  simp only [found r hr e he]

/-- The simulation of a body that is linked and not empty is a search from its entries. -/
theorem simulate_eq (hb : m.body? k = some b) (h : b.Linked m.arena) (filled : b.code ≠ []) :
    m.simulate k =
      Simulation.visit (m.stackStep k b.code.toArray (.ofList b.code))
        (.stackMismatch (m.methodName k)) (.replicate b.code.length none) 0 b.entries.reverse := by
  have body : m.body k = .ok b := by rw [Module.body, hb]
  have nonempty : b.code.isEmpty = false := by simpa using filled
  unfold simulate
  rw [body]
  simp only [bind, Except.bind, nonempty]
  rw [rangeEntries_eq h]
  rfl

end Module

end Graft
