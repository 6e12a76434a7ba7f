import Graft.Proofs.Depths
import Graft.Proofs.Splicing
import Mathlib.Order.Bounds.Basic

/-!
# Straight code in a body

Code without jumps that is put into a body is executed only where control falls into it. Jumps to
the instruction behind it, and handlers that start there, pass it by. If it leaves the stack as deep
as it was, all paths go on as before, so the body still simulates, and the stack gets deeper only
inside of the new code.
-/

namespace Graft

/-! ## Straight code by itself -/

namespace Instruction

variable {L : Type} {effect : Instruction L → StackEffect} {code : List (Instruction L)}
  {i : Instruction L} {h h' j peak : Nat}

/-- Whatever empties the stack ends a path. -/
theorem left_of_fallsThrough {e : StackEffect} {depth : Nat} (falls : i.fallsThrough = true) :
    i.left e depth = after e depth := by
  have keeps : i.emptiesStack = false := by
    cases i <;> first | rfl | cases falls
  rw [left, keeps]
  rfl

/-- Instructions that are executed one after another take the stack from the depth `h` to the depth
`h'`. The deepest that it gets is `peak`. -/
inductive Runs (effect : Instruction L → StackEffect) :
    List (Instruction L) → Nat → Nat → Nat → Prop
  | nil {h : Nat} : Runs effect [] h h h
  | cons {i : Instruction L} {code : List (Instruction L)} {h h' peak : Nat}
    (falls : i.fallsThrough = true) (enough : (effect i).pops ≤ h)
    (rest : Runs effect code (after (effect i) h) h' peak) :
    Runs effect (i :: code) h h' (max h peak)

/-- The depth in front of instruction `j` of code that is entered with the depth `h`. -/
def level (effect : Instruction L → StackEffect) (code : List (Instruction L)) (h j : Nat) : Nat :=
  (code.take j).foldl (fun depth i => after (effect i) depth) h

@[simp] theorem level_zero : level effect code h 0 = h := rfl

@[simp] theorem level_cons : level effect (i :: code) h (j + 1) =
    level effect code (after (effect i) h) j := rfl

theorem level_succ (hi : code[j]? = some i) :
    level effect code h (j + 1) = after (effect i) (level effect code h j) := by
  simp [level, List.take_add_one, hi]

namespace Runs

/-- The constructor with the effect of the instruction written out. -/
theorem step {e : StackEffect} (same : effect i = e) (falls : i.fallsThrough = true)
    (enough : e.pops ≤ h) (rest : Runs effect code (after e h) h' peak) :
    Runs effect (i :: code) h h' (max h peak) := by
  subst same
  exact .cons falls enough rest

theorem fallsThrough (runs : Runs effect code h h' peak) :
    ∀ i ∈ code, i.fallsThrough = true := by
  induction runs with
  | nil => exact List.forall_mem_nil _
  | cons falls _ _ ih => exact List.forall_mem_cons.mpr ⟨falls, ih⟩

theorem enough (runs : Runs effect code h h' peak) (hi : code[j]? = some i) :
    (effect i).pops ≤ level effect code h j := by
  induction runs generalizing j with
  | nil => cases hi
  | cons _ enough _ ih =>
    cases j with
    | zero => cases hi; exact enough
    | succ j => exact ih hi

theorem level_length (runs : Runs effect code h h' peak) :
    level effect code h code.length = h' := by
  induction runs with
  | nil => rfl
  | cons _ _ _ ih => exact ih

/-- The depths at all places of the code, its end included. -/
theorem isGreatest (runs : Runs effect code h h' peak) :
    IsGreatest {x | ∃ j ≤ code.length, level effect code h j = x} peak := by
  induction runs with
  | nil =>
    refine ⟨⟨0, le_rfl, rfl⟩, ?_⟩
    rintro x ⟨j, hj, rfl⟩
    obtain rfl := Nat.le_zero.mp hj
    exact le_rfl
  | @cons i code h h' peak _ _ _ ih =>
    have split : {x | ∃ j ≤ (i :: code).length, level effect (i :: code) h j = x} =
        {h} ∪ {x | ∃ j ≤ code.length, level effect code (after (effect i) h) j = x} := by
      ext x
      constructor
      · rintro ⟨j, hj, rfl⟩
        cases j with
        | zero => exact .inl rfl
        | succ j => exact .inr ⟨j, Nat.le_of_succ_le_succ hj, rfl⟩
      · rintro (rfl | ⟨j, hj, rfl⟩)
        · exact ⟨0, Nat.zero_le _, rfl⟩
        · exact ⟨j + 1, Nat.succ_le_succ hj, rfl⟩
    rw [split]
    exact isGreatest_singleton.union ih

theorem le_peak (runs : Runs effect code h h' peak) (hj : j ≤ code.length) :
    level effect code h j ≤ peak :=
  runs.isGreatest.2 ⟨j, hj, rfl⟩

/-- Code behind other code starts with what that leaves. -/
theorem append {code' : List (Instruction L)} {h'' peak' : Nat} (runs : Runs effect code h h' peak)
    (runs' : Runs effect code' h' h'' peak') :
    Runs effect (code ++ code') h h'' (max peak peak') := by
  induction runs with
  | nil =>
    have start : _ ≤ peak' := runs'.le_peak (Nat.zero_le _)
    rw [level_zero] at start
    rw [Nat.max_eq_right start]
    exact runs'
  | cons falls enough _ ih =>
    rw [Nat.max_assoc]
    exact .cons falls enough (ih runs')

end Runs

end Instruction

open Instruction (Runs level)
open Places (shift)

namespace Module

/-! ## Where control falls into a position -/

/-- Control comes to a position with a depth without a jump and without an exception: it is the
first one of the body, or the one behind an instruction that is reached and falls through. -/
inductive FallsTo (m : Module) (k : MethodId) (b : LiveBody) : Nat → Nat → Prop where
  | first : FallsTo m k b 0 0
  | next {p depth : Nat} {i : Instruction InsnId} (before : m.Reaches k b p depth)
    (hi : m.instructionAt? b p = some i) (falls : i.fallsThrough = true) :
    FallsTo m k b (p + 1) (i.left (m.stackEffect k i) depth)

/-- What control reaches once straight code stands in front of position `p`: what it reached before,
behind the new code from position `p` on, and what it falls into of the new code. -/
inductive ReachesWith (m : Module) (k : MethodId) (b : LiveBody) (p : Nat)
    (code : List (Instruction Empty)) (x depth : Nat) : Prop where
  | old {q : Nat} (place : x = shift p code.length q) (reaches : m.Reaches k b q depth)
  | new {j h : Nat} (place : x = p + j) (hj : j < code.length) (falls : m.FallsTo k b p h)
    (deep : depth = level (m.stackEffect k) code h j)

variable {m m' : Module} {k : MethodId} {b b' : LiveBody} {code : List (Instruction Empty)}
  {p q j x y h depth depth' peak r : Nat}

theorem FallsTo.reaches (falls : m.FallsTo k b p h) : m.Reaches k b p h := by
  cases falls with
  | first => exact .enter .first
  | next before hi falls => exact before.next hi falls

theorem Balanced.lt_of_fallsTo (balanced : m.Balanced k b) (falls : m.FallsTo k b p h) :
    p < b.code.length := by
  cases falls with
  | first => exact List.length_pos_of_ne_nil balanced.filled
  | next before hi falls => exact (balanced.runs _ _ _ before hi).inside falls

/-- Control that falls into code that leaves the stack as deep as it was gets to its end, which is
the place that control fell into before. -/
theorem ReachesWith.of_fallsTo (falls : m.FallsTo k b p h)
    (runs : Runs (m.stackEffect k) code h h peak) (hj : j ≤ code.length) :
    m.ReachesWith k b p code (p + j) (level (m.stackEffect k) code h j) := by
  rcases hj.lt_or_eq with hj | rfl
  · exact .new rfl hj falls rfl
  · rw [runs.level_length]
    exact .old Places.shift_self.symm falls.reaches

/-- If one depth is enough for each position of a body, so it is with the code. -/
theorem ReachesWith.agree (before : m.Balanced k b) (reaches : m.ReachesWith k b p code x depth)
    (reaches' : m.ReachesWith k b p code x depth') : depth = depth' := by
  cases reaches with
  | old place reaches =>
    cases reaches' with
    | old place' reaches' =>
      obtain rfl := Places.shift_inj.mp (place.symm.trans place')
      exact before.agree _ _ _ reaches reaches'
    | new place' hj => exact absurd (place.symm.trans place') (Places.shift_ne hj)
  | new place hj falls deep =>
    cases reaches' with
    | old place' => exact absurd (place'.symm.trans place) (Places.shift_ne hj)
    | new place' hj' falls' deep' =>
      obtain rfl := Nat.add_left_cancel (place.symm.trans place')
      obtain rfl := before.agree _ _ _ falls.reaches falls'.reaches
      exact deep.trans deep'.symm

/-! ## Bodies with straight code put in -/

/-- The second body is the first one with straight code put in front of position `p`: around the
code there are the same instructions and ranges as before, and no label leads into it. -/
structure Interposed (m m' : Module) (k : MethodId) (p : Nat) (code : List (Instruction Empty))
    (b b' : LiveBody) : Prop where
  length : b'.code.length = b.code.length + code.length
  ranges : b'.ranges = b.ranges
  effect : ∀ i : Instruction InsnId, m'.stackEffect k i = m.stackEffect k i
  old : ∀ q, m'.instructionAt? b' (shift p code.length q) = m.instructionAt? b q
  new : ∀ j i, code[j]? = some i → m'.instructionAt? b' (p + j) = some (i.mapLabels nofun)
  label : ∀ l ∈ b.code, ∀ x, b'.code[x]? = some l ↔
    ∃ q, x = shift p code.length q ∧ b.code[q]? = some l

namespace Interposed

variable (put : m.Interposed m' k p code b b')
include put

theorem instruction_new {i : Instruction InsnId} (hj : j < code.length)
    (hi : m'.instructionAt? b' (p + j) = some i) : i = code[j].mapLabels nofun :=
  Option.some.inj (hi.symm.trans (put.new j _ (List.getElem?_eq_getElem hj)))

/-- No jump leads into the new code. -/
theorem mem_of_target (linked : b.Linked m.arena) {i : Instruction InsnId} {l : InsnId}
    (hi : m'.instructionAt? b' x = some i) (hl : l ∈ i.targets) : l ∈ b.code := by
  rcases Places.exists_shift_or p code.length x with ⟨q, rfl⟩ | ⟨j, hj, rfl⟩
  · rw [put.old] at hi
    obtain ⟨id, hid, stored⟩ := Option.bind_eq_some_iff.mp hi
    exact linked.targets id (List.mem_of_getElem? hid) i stored l hl
  · rw [put.instruction_new hj hi, Instruction.targets_mapLabels] at hl
    obtain ⟨nowhere, -, -⟩ := List.mem_map.mp hl
    exact nowhere.elim

theorem left_new (hj : j < code.length) (falls : code[j].fallsThrough = true) :
    (code[j].mapLabels nofun : Instruction InsnId).left
      (m'.stackEffect k (code[j].mapLabels nofun : Instruction InsnId))
        (level (m.stackEffect k) code h j) = level (m.stackEffect k) code h (j + 1) := by
  rw [Instruction.left_of_fallsThrough (by simpa using falls), put.effect,
    Tables.stackEffect_mapLabels, Instruction.level_succ (List.getElem?_eq_getElem hj)]

/-! ### What was reached before -/

theorem enters_shift (enters : b.Enters q depth) :
    (q = 0 ∧ depth = 0) ∨ b'.Enters (shift p code.length q) depth := by
  rcases LiveBody.enters_iff.mp enters with first | ⟨r, hr, l, he, hq⟩
  · exact .inl first
  · refine .inr (LiveBody.enters_iff.mpr (.inr ⟨r, put.ranges ▸ hr, l, he, ?_⟩))
    exact (put.label l (List.mem_of_getElem? hq) _).mpr ⟨q, rfl, hq⟩

/-- Control goes through the new code one instruction after another. -/
theorem reaches_new (runs : Runs (m.stackEffect k) code h h peak)
    (entered : m'.Reaches k b' p h) (hj : j ≤ code.length) :
    m'.Reaches k b' (p + j) (level (m.stackEffect k) code h j) := by
  induction j with
  | zero => exact entered
  | succ j ih =>
    have falls := runs.fallsThrough _ (List.getElem_mem hj)
    have next := (ih (Nat.le_of_succ_le hj)).next
      (put.new j _ (List.getElem?_eq_getElem hj)) (by simpa using falls)
    rwa [put.left_new hj falls] at next

theorem reaches_behind (runs : Runs (m.stackEffect k) code h h peak)
    (entered : m'.Reaches k b' p h) : m'.Reaches k b' (shift p code.length p) h := by
  have passed := put.reaches_new runs entered le_rfl
  rwa [runs.level_length, ← Places.shift_self] at passed

section Paths

variable (neutral : ∀ h, m.FallsTo k b p h → Runs (m.stackEffect k) code h h peak)
include neutral

/-- What was reached is still reached, with the same depth. -/
theorem reaches_shift (reaches : m.Reaches k b q depth) :
    m'.Reaches k b' (shift p code.length q) depth := by
  induction reaches with
  | enter enters =>
    rcases put.enters_shift enters with ⟨rfl, rfl⟩ | enters
    · rcases Nat.eq_zero_or_pos p with rfl | behind
      · exact put.reaches_behind (neutral 0 .first) (.enter .first)
      · rw [Places.shift_of_lt behind]
        exact .enter .first
    · exact .enter enters
  | @jump q depth q' i l before hi hl hq ih =>
    rw [← put.effect i]
    exact ih.jump ((put.old q).trans hi) hl
      ((put.label l (List.mem_of_getElem? hq) _).mpr ⟨q', rfl, hq⟩)
  | @next q depth i before hi falls ih =>
    have next := ih.next ((put.old q).trans hi) falls
    rw [put.effect] at next
    by_cases here : q + 1 = p
    · subst here
      rw [Places.shift_of_lt (Nat.lt_succ_self q)] at next
      exact put.reaches_behind (neutral _ (.next before hi falls)) next
    · rwa [Places.shift_succ here]

/-- Where control fell to position `p`, it now falls into the new code. -/
theorem reaches_front (falls : m.FallsTo k b p h) : m'.Reaches k b' p h := by
  cases falls with
  | first => exact .enter .first
  | @next q depth i before hi falls =>
    have reaches := put.reaches_shift neutral before
    have old := put.old q
    rw [Places.shift_of_lt (Nat.lt_succ_self q)] at reaches old
    rw [← put.effect i]
    exact reaches.next (old.trans hi) falls

/-! ### What is reached now -/

omit neutral in
theorem exists_enters (linked : b.Linked m.arena) (enters : b'.Enters x depth) :
    (x = 0 ∧ depth = 0) ∨ ∃ q, x = shift p code.length q ∧ b.Enters q depth := by
  rcases LiveBody.enters_iff.mp enters with first | ⟨r, hr, l, he, hx⟩
  · exact .inl first
  · rw [put.ranges] at hr
    have own := linked.markers r hr l (ExceptionRange.mem_markers_of_mem_entryPoints he)
    obtain ⟨q, rfl, hq⟩ := (put.label l own x).mp hx
    exact .inr ⟨q, rfl, LiveBody.enters_iff.mpr (.inr ⟨r, hr, l, he, hq⟩)⟩

/-- Nothing else is reached. -/
theorem reachesWith_of_reaches (linked : b.Linked m.arena) (reaches : m'.Reaches k b' x depth) :
    m.ReachesWith k b p code x depth := by
  have fallen : ∀ h, m.FallsTo k b p h → m.ReachesWith k b p code p h := fun h falls =>
    .of_fallsTo falls (neutral h falls) (Nat.zero_le _)
  induction reaches with
  | enter enters =>
    rcases put.exists_enters linked enters with ⟨rfl, rfl⟩ | ⟨q, rfl, entered⟩
    · rcases Nat.eq_zero_or_pos p with rfl | behind
      · exact fallen 0 .first
      · exact .old (Places.shift_of_lt behind).symm (.enter .first)
    · exact .old rfl (.enter entered)
  | jump before hi hl hq ih =>
    obtain ⟨q', rfl, hq'⟩ := (put.label _ (put.mem_of_target linked hi hl) _).mp hq
    cases ih with
    | old place reaches =>
      subst place
      rw [put.old] at hi
      rw [put.effect]
      exact .old rfl (reaches.jump hi hl hq')
    | new place hj =>
      subst place
      rw [put.instruction_new hj hi, Instruction.targets_mapLabels] at hl
      obtain ⟨nowhere, -, -⟩ := List.mem_map.mp hl
      exact nowhere.elim
  | next before hi falls ih =>
    cases ih with
    | @old q place reaches =>
      subst place
      rw [put.old] at hi
      rw [put.effect]
      by_cases here : q + 1 = p
      · subst here
        rw [Places.shift_of_lt (Nat.lt_succ_self q)]
        exact fallen _ (.next reaches hi falls)
      · exact .old (Places.shift_succ here).symm (reaches.next hi falls)
    | new place hj entered deep =>
      subst place deep
      obtain rfl := put.instruction_new hj hi
      have runs := neutral _ entered
      rw [put.left_new hj (runs.fallsThrough _ (List.getElem_mem hj))]
      exact .of_fallsTo entered runs hj

/-! ### Simulation -/

/-- If the stack gets not too deep in the new code, the body stays balanced. -/
theorem balanced (linked : b.Linked m.arena) (bounded : peak ≤ maxDepth)
    (before : m.Balanced k b) : m'.Balanced k b' where
  filled := by
    have some := List.length_pos_of_ne_nil before.filled
    rw [← List.length_pos_iff, put.length]
    omega
  runs x depth i reaches hi := by
    cases put.reachesWith_of_reaches neutral linked reaches with
    | old place reached =>
      subst place
      rw [put.old] at hi
      obtain ⟨enough, bounded, inside⟩ := before.runs _ _ _ reached hi
      rw [put.effect]
      refine ⟨enough, bounded, fun falls => ?_⟩
      have inside := inside falls
      rw [put.length, shift]
      split <;> omega
    | new place hj falls deep =>
      subst place deep
      obtain rfl := put.instruction_new hj hi
      have hi := List.getElem?_eq_getElem hj
      have runs := neutral _ falls
      rw [put.effect, Tables.stackEffect_mapLabels]
      refine Instruction.executable_mapLabels.mpr ⟨runs.enough hi, ?_, fun _ => ?_⟩
      · rw [← Instruction.level_succ hi]
        exact (runs.le_peak hj).trans bounded
      · have inside := before.lt_of_fallsTo falls
        rw [put.length]
        omega
  agree x depth depth' reaches reaches' :=
    ReachesWith.agree before (put.reachesWith_of_reaches neutral linked reaches)
      (put.reachesWith_of_reaches neutral linked reaches')

/-- The depths on the paths are those from before and those in the new code. -/
theorem pathDepth_iff (readable : b.Readable m.arena) (before : m.Balanced k b) :
    m'.PathDepth k b' y ↔ m.PathDepth k b y ∨
      ∃ h, m.FallsTo k b p h ∧ ∃ j ≤ code.length, level (m.stackEffect k) code h j = y := by
  have kept : m.PathDepth k b y → m'.PathDepth k b' y := by
    rintro ⟨q, depth, i, reaches, hi, deep⟩
    exact ⟨_, depth, i, put.reaches_shift neutral reaches, (put.old q).trans hi,
      put.effect i ▸ deep⟩
  constructor
  · rintro ⟨x, depth, i, reaches, hi, deep⟩
    cases put.reachesWith_of_reaches neutral readable.toLinked reaches with
    | old place reached =>
      subst place
      rw [put.old] at hi
      exact .inl ⟨_, depth, i, reached, hi, put.effect i ▸ deep⟩
    | new place hj falls level =>
      subst place level
      obtain rfl := put.instruction_new hj hi
      refine .inr ⟨_, falls, ?_⟩
      rcases deep with rfl | rfl
      · exact ⟨_, hj.le, rfl⟩
      · refine ⟨_, hj, ?_⟩
        rw [put.effect, Tables.stackEffect_mapLabels,
          Instruction.level_succ (List.getElem?_eq_getElem hj)]
  · rintro (old | ⟨h, falls, j, hj, rfl⟩)
    · exact kept old
    rcases hj.lt_or_eq with hj | rfl
    · exact ⟨_, _, _, put.reaches_new (neutral h falls) (put.reaches_front neutral falls) hj.le,
        put.new j _ (List.getElem?_eq_getElem hj), .inl rfl⟩
    · have inside := before.lt_of_fallsTo falls
      obtain ⟨i, stored⟩ := readable.stored _ (List.getElem_mem inside)
      have hi : m.instructionAt? b p = some i := by
        rw [instructionAt?, List.getElem?_eq_getElem inside]
        exact stored
      exact kept ⟨p, h, i, falls.reaches, hi, .inl (neutral h falls).level_length⟩

end Paths

section Simulation

variable (hb : m.body? k = some b) (hb' : m'.body? k = some b') (readable : b.Readable m.arena)
  (readable' : b'.Readable m'.arena) (hs : m.simulate k = .ok r)
include hb hb' readable readable' hs

/-- If control falls into the new code, the body needs what it needed before and what the code
does. -/
theorem simulate_of_fallsTo (falls : m.FallsTo k b p h)
    (runs : Runs (m.stackEffect k) code h h peak) (bounded : peak ≤ maxDepth) :
    m'.simulate k = .ok (max r peak) := by
  have before := balanced_of_simulate hb readable hs
  have only : ∀ h', m.FallsTo k b p h' → h = h' := fun h' falls' =>
    before.agree _ _ _ falls.reaches falls'.reaches
  have neutral : ∀ h', m.FallsTo k b p h' → Runs (m.stackEffect k) code h' h' peak :=
    fun h' falls' => only h' falls' ▸ runs
  obtain ⟨r', hs'⟩ := (exists_simulate_iff hb' readable').mpr
    (put.balanced neutral readable.toLinked bounded before)
  have depths : {y | m'.PathDepth k b' y} = {y | m.PathDepth k b y} ∪
      {y | ∃ j ≤ code.length, level (m.stackEffect k) code h j = y} := by
    ext y
    refine (put.pathDepth_iff neutral readable before).trans (or_congr_right ?_)
    constructor
    · rintro ⟨h', falls', deep⟩
      obtain rfl := only h' falls'
      exact deep
    · exact fun deep => ⟨h, falls, deep⟩
  have deepest := (isGreatest_of_simulate hb readable hs).union runs.isGreatest
  rw [← depths] at deepest
  rw [hs', (isGreatest_of_simulate hb' readable' hs').unique deepest]

/-- If it does not, the body needs what it needed before. -/
theorem simulate_of_passed (passed : ∀ h, ¬ m.FallsTo k b p h) : m'.simulate k = .ok r := by
  have before := balanced_of_simulate hb readable hs
  have neutral : ∀ h, m.FallsTo k b p h → Runs (m.stackEffect k) code h h 0 :=
    fun h falls => absurd falls (passed h)
  obtain ⟨r', hs'⟩ := (exists_simulate_iff hb' readable').mpr
    (put.balanced neutral readable.toLinked (Nat.zero_le _) before)
  have depths : {y | m'.PathDepth k b' y} = {y | m.PathDepth k b y} := by
    ext y
    refine (put.pathDepth_iff neutral readable before).trans (or_iff_left ?_)
    rintro ⟨h, falls, -⟩
    exact passed h falls
  have deepest := isGreatest_of_simulate hb readable hs
  rw [← depths] at deepest
  rw [hs', (isGreatest_of_simulate hb' readable' hs').unique deepest]

end Simulation

end Interposed

end Module

/-! ## Splices of straight code -/

namespace LiveBody

variable {k : MethodId} {a : Arena} {b : LiveBody} {l : InsnId} {p q j n x : Nat}

theorem getElem?_insert_shift (hp : p ≤ b.code.length) :
    (b.insert p (a.nextIds n)).code[shift p n q]? = b.code[q]? := by
  have place : (b.code.take p ++ a.nextIds n ++ b.code.drop p)[
      shift p (a.nextIds n).length q]? = b.code[q]? := Places.getElem?_shift hp
  rwa [Arena.length_nextIds] at place

theorem getElem?_insert_new (hp : p ≤ b.code.length) (hj : j < n) :
    (b.insert p (a.nextIds n)).code[p + j]? = some (.ofIndex (a.size + j)) :=
  (Places.getElem?_inserted hp (hj.trans_eq (Arena.length_nextIds n).symm)).trans
    (Arena.getElem?_nextIds hj)

/-- A handle that was in the body is found where it was, shifted, and nowhere else. -/
theorem Tied.getElem?_insert_iff (tied : b.Tied k a) (hp : p ≤ b.code.length)
    (room : a.size + n ≤ Arena.capacity) (hl : l ∈ b.code) :
    (b.insert p (a.nextIds n)).code[x]? = some l ↔
      ∃ q, x = shift p n q ∧ b.code[q]? = some l := by
  constructor
  · intro hx
    rcases Places.exists_shift_or p n x with ⟨q, rfl⟩ | ⟨j, hj, rfl⟩
    · exact ⟨q, rfl, (getElem?_insert_shift hp).symm.trans hx⟩
    · rw [getElem?_insert_new hp hj] at hx
      have new := List.mem_of_getElem? ((Arena.getElem?_nextIds hj).trans hx)
      exact absurd hl (tied.notMem_of_mem_nextIds room new)
  · rintro ⟨q, rfl, hq⟩
    exact (getElem?_insert_shift hp).trans hq

end LiveBody

namespace Module

variable {m m' : Module} {k : MethodId} {b b' : LiveBody} {code : List (Instruction Empty)}
  {ids : List InsnId} {p j r : Nat}

/-- The handles of straight code stand for its instructions. -/
theorem get?_append_straight {a : Arena} {i : Instruction Empty}
    (room : a.size + code.length ≤ Arena.capacity) (hi : code[j]? = some i) :
    (a.append k ((Fragment.straight code).instructions a.size)).get? (.ofIndex (a.size + j)) =
      some (i.mapLabels nofun) := by
  have length : ((Fragment.straight code).instructions a.size).length = code.length := by
    simp [Fragment.instructions, Fragment.straight]
  have hj := (List.getElem?_eq_some_iff.mp hi).1
  rw [Arena.get?_append_ofIndex (length ▸ room) (length ▸ hj), Fragment.instructions,
    Fragment.straight, List.map_map, List.getElem?_map, hi, Option.map_some, Function.comp,
    Instruction.mapLabels_mapLabels]
  exact congrArg some (Instruction.mapLabels_congr fun l _ => l.elim)

/-- A splice of straight code puts it in front of the position. -/
theorem interposed_of_splice (linked : m.Linked) (hb : m.body? k = some b)
    (ok : (Edit.splice k p (.straight code)).apply m = (.ok ids, m'))
    (room : m'.arena.size ≤ Arena.capacity) (hb' : m'.body? k = some b') :
    m.Interposed m' k p code b b' := by
  have tied := linked.tied hb
  obtain ⟨c, hc, hp, -, -, left⟩ := Edit.apply_splice_ok.mp ok
  obtain rfl : b = c := Option.some.inj (hb.symm.trans hc)
  have count : (Fragment.straight code).code.length = code.length := List.length_map _
  rw [count] at left
  subst left
  obtain ⟨depth, -, rfl⟩ := eq_of_body?_rebuilt hb hb'
  rw [arena_rebuilt, Arena.size_append, Fragment.instructions, List.length_map, count] at room
  constructor
  · show (b.code.take p ++ m.arena.nextIds code.length ++ b.code.drop p).length = _
    simp
    omega
  · rfl
  · exact fun i => Tables.stackEffect_of_outline
      (Tables.outline_of_declarations (Frame.rebuilt hb Arena.frame_append).declarations)
  · intro q
    show (b.insert p (m.arena.nextIds code.length)).code[shift p code.length q]?.bind _ = _
    rw [LiveBody.getElem?_insert_shift hp, instructionAt?]
    refine Option.bind_congr fun id hid => ?_
    rw [instruction?, arena_rebuilt]
    exact tied.get?_append (List.mem_of_getElem? hid)
  · intro j i hi
    show (b.insert p (m.arena.nextIds code.length)).code[p + j]?.bind _ = _
    rw [LiveBody.getElem?_insert_new hp (List.getElem?_eq_some_iff.mp hi).1, Option.bind_some,
      instruction?, arena_rebuilt]
    exact get?_append_straight room hi
  · exact fun l hl x => tied.getElem?_insert_iff hp room hl

/-- A sound body that got a fragment verifies with what it simulates with, and declares that if it
did not declare more before. -/
theorem verified_of_splice {f : Fragment} (linked : m.Linked) (hb : m.body? k = some b)
    (sound : b.Sound m.toTables k m.arena) (ordered : f.Ordered)
    (ok : (Edit.splice k p f).apply m = (.ok ids, m')) (room : m'.arena.size ≤ Arena.capacity)
    (hb' : m'.body? k = some b') (hs : m'.simulate k = .ok r) :
    m'.Verified k b' r ∧ b'.maxStack.toNat = max b.maxStack.toNat r := by
  have owned : b.Owned m.toTables k m.arena := ⟨sound, (linked.tied hb).owner_iff⟩
  obtain ⟨c, hc, hp, operands, -, rfl⟩ := Edit.apply_splice_ok.mp ok
  obtain rfl : b = c := Option.some.inj (hb.symm.trans hc)
  rw [arena_rebuilt, Arena.size_append, Fragment.instructions, List.length_map] at room
  have owned := owned.splice ordered hp room operands
  exact verified_of_rebuilt hb owned.toSound (fun id => (owned.owner_iff id).mpr) hb' hs

end Module

end Graft
