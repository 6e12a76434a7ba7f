import Graft.Proofs.Refusals
import Graft.Proofs.Splicing

/-!
# Copying bodies

All of a body can be lifted out of it, and a body that was emptied gives the place for it, so a copy
is seen as the body that was copied. But the old body is gone before the instructions of the copy
are checked, and loading has not checked which arguments and locals they use.
-/

namespace Graft

/-! ## Bodies as fragments -/

namespace FileBody

variable {v : FileBody} {name : String}

/-- All of a body, if no label leads out of it. -/
def fragment (v : FileBody) (closed : v.Closed) : Fragment where
  code := v.code.map (·.mapLabels UInt32.toNat)
  ranges := v.ranges.map (·.mapLabels UInt32.toNat)
  targets_lt := by
    rw [List.forall_mem_map, List.length_map]
    intro i hi
    rw [Instruction.targets_mapLabels, List.forall_mem_map]
    exact closed.targets i hi
  markers_lt := by
    rw [List.forall_mem_map, List.length_map]
    intro r hr
    rw [ExceptionRange.markers_mapLabels, List.forall_mem_map]
    exact closed.markers r hr

theorem isInside_all {n : Nat} {l : UInt32} (hl : l.toNat < n) : isInside 0 (n - 1) l = true := by
  rw [isInside_eq_true]
  omega

/-- A body can be lifted as a whole. -/
theorem liftCode_all (closed : v.Closed) :
    v.liftCode name 0 (v.code.length - 1) = .ok (v.fragment closed).code := by
  have all : (v.code.drop 0).take (v.code.length - 1 + 1 - 0) = v.code := by
    rw [List.drop_zero, List.take_of_length_le (by omega)]
  rw [liftCode_eq_ok, all]
  · rfl
  · rw [all]
    exact fun i hi l hl => isInside_all (closed.targets i hi l hl)

theorem liftRanges_all (closed : v.Closed) :
    v.liftRanges name 0 (v.code.length - 1) = .ok ((v.fragment closed).ranges.map some) := by
  have inside : ∀ r ∈ v.ranges, ∀ l ∈ r.markers, isInside 0 (v.code.length - 1) l = true :=
    fun r hr l hl => isInside_all (closed.markers r hr l hl)
  rw [liftRanges_eq_ok fun r hr => .inl (inside r hr), fragment, List.map_map]
  exact congrArg _ (List.map_congr_left fun r hr => liftedRange_of_inside (inside r hr))

/-- The body without its instructions and ranges. -/
def emptied (v : FileBody) : FileBody := { v with code := [], ranges := [] }

/-- And it can be put together again. -/
theorem splice_fragment (closed : v.Closed) : v.emptied.splice 0 (v.fragment closed) = v := by
  have label : ((fun l : Nat => UInt32.ofNat (0 + l)) ∘ UInt32.toNat) = id :=
    funext fun l => by simp
  have code :
      (v.fragment closed).code.map (·.mapLabels fun l => UInt32.ofNat (0 + l)) = v.code := by
    rw [fragment, List.map_map]
    refine (List.map_congr_left fun i _ => ?_).trans (List.map_id _)
    rw [Function.comp, Instruction.mapLabels_mapLabels, label, Instruction.mapLabels_id, id_eq]
  have ranges :
      (v.fragment closed).ranges.map (·.mapLabels fun l => UInt32.ofNat (0 + l)) = v.ranges := by
    rw [fragment, List.map_map]
    refine (List.map_congr_left fun r _ => ?_).trans (List.map_id _)
    rw [Function.comp, ExceptionRange.mapLabels_mapLabels, label, ExceptionRange.mapLabels_id,
      id_eq]
  rw [splice, insertBlock, code, ranges]
  simp [emptied]

end FileBody

namespace LiveBody.Readable

variable {a : Arena} {b : LiveBody}

/-- The instructions of the fragment are those of the body. -/
theorem forall_mem_fragment {μ β : Type} {t : Tables μ β} {arguments locals : Nat}
    (h : b.Readable a) :
    (∀ i ∈ ((b.view a).fragment h.closed).code, i.Resolves t ∧ i.Fits arguments locals) ↔
      ∀ id ∈ b.code, ∀ i, a.get? id = some i → i.Resolves t ∧ i.Fits arguments locals := by
  rw [FileBody.fragment, List.forall_mem_map]
  refine (h.forall_mem_code fun i _ => ?_).symm
  simp only [Instruction.resolves_mapLabels, Instruction.fits_mapLabels]

end LiveBody.Readable

/-- The body without its instructions and ranges. -/
def LiveBody.emptied (b : LiveBody) : LiveBody := { b with code := [], ranges := [] }

namespace Module

variable {m m' : Module} {k source target : MethodId} {b c : LiveBody}

theorem extract_all (hb : m.body? k = some b) (h : b.Readable m.arena) (filled : b.code ≠ []) :
    m.extract k 0 (b.code.length - 1) = .ok ((b.view m.arena).fragment h.closed) := by
  have count := List.length_pos_iff.mpr filled
  have length : (b.view m.arena).code.length = b.code.length := LiveBody.length_code_view
  refine (extract_eq_ok_view hb h).mpr ⟨by omega, ?_⟩
  rw [← length]
  exact ⟨FileBody.liftCode_all h.closed, _, FileBody.liftRanges_all h.closed, by simp⟩

theorem checkSameShape_eq_ok :
    m.checkSameShape source target = .ok () ↔
      ∃ d e, m.method? source = some d ∧ m.method? target = some e ∧
        d.signature.sameShape e.signature = true ∧ d.isStatic = e.isStatic := by
  rw [checkSameShape]
  cases m.method? source <;> cases m.method? target <;> simp

/-- Methods of the same shape take as many arguments, and both give a value or neither does. -/
theorem argumentCount_of_sameShape (h : m.checkSameShape source target = .ok ()) :
    m.argumentCount target = m.argumentCount source := by
  obtain ⟨d, e, hd, he, shape, static⟩ := checkSameShape_eq_ok.mp h
  simp only [MethodSig.sameShape, Bool.and_eq_true, decide_eq_true_eq] at shape
  have length := congrArg List.length shape.2
  rw [List.length_map, List.length_map] at length
  rw [Tables.argumentCount, Tables.argumentCount, hd, he, Option.elim_some, Option.elim_some,
    Method.argumentCount, Method.argumentCount, static, length]

/-- What there is to copy, and what it is to replace. -/
structure Copyable (m : Module) (source target : MethodId) (b c : LiveBody) : Prop where
  shape : m.checkSameShape source target = .ok ()
  source : m.body? source = some b
  target : m.body? target = some c
  filled : b.code ≠ []

/-- The instructions of a body mention only what is in the tables, and use only the arguments and
locals that there are. -/
def Usable (m : Module) (k : MethodId) (b : LiveBody) : Prop :=
  ∀ id ∈ b.code, ∀ i, m.arena.get? id = some i →
    i.Resolves m.toTables ∧ i.Fits (m.argumentCount k) b.locals.length

/-- The module once the body `c` of `target` was thrown away for a copy of `b`. -/
def cleared (m : Module) (target : MethodId) (b c : LiveBody) : Module :=
  (m.touch target).withBody target b.emptied (m.arena.releaseAll c.code)

theorem declarations_cleared : (m.cleared target b c).declarations = m.declarations :=
  declarations_withBody (m := m.touch target)

theorem touch_cleared : (m.cleared target b c).touch target = m.cleared target b c :=
  congrArg (fun m => withBody m target b.emptied _) touch_touch

theorem body?_cleared (h : m.body? target = some c) :
    (m.cleared target b c).body? target = some b.emptied :=
  body?_withBody_self (m := m.touch target) h

theorem Linked.cleared (h : m.Linked) (hc : m.body? target = some c) :
    (m.cleared target b c).Linked := by
  have tied := h.tied hc
  exact (h.touch (k := target)).withBody hc
    (Arena.frame_releaseAll fun id => (tied.owner_iff id).mpr) (tied.reset rfl rfl)

end Module

namespace Edit

variable {m m' : Module} {source target : MethodId} {b c : LiveBody} {fault : Fault}
  {ids : List InsnId}

/-! ## The first stage -/

/-- If there is nothing to copy or nothing to replace, or the shapes differ, nothing happens. -/
theorem apply_copyBody_of_forall_not (none : ∀ b c, ¬m.Copyable source target b c) :
    ∃ fault, (copyBody source target).apply m = (.error fault, m) := by
  rw [copyBody, discard_then, apply_check_bind]
  cases shape : m.checkSameShape source target with
  | error fault => exact ⟨fault, rfl⟩
  | ok _ =>
    dsimp only
    rw [apply_check_bind]
    cases hc : m.body target with
    | error fault => exact ⟨fault, rfl⟩
    | ok c =>
      dsimp only
      rw [apply_check_bind]
      cases whole : m.wholeBody source with
      | error fault => exact ⟨fault, rfl⟩
      | ok copied =>
        obtain ⟨b, hb, filled, -⟩ := wholeBody_eq_ok.mp whole
        exact absurd ⟨shape, hb, Module.body_eq_ok.mp hc, filled⟩ (none b c)

/-- Otherwise the old body is thrown away, and the copy put in its place. -/
theorem apply_copyBody_of_copyable (h : m.Copyable source target b c) (hr : b.Readable m.arena) :
    (copyBody source target).apply m =
      (splice target 0 ((b.view m.arena).fragment hr.closed)).apply (m.cleared target b c) := by
  have body : m.body target = .ok c := Module.body_eq_ok.mpr h.target
  have whole : m.wholeBody source = .ok ((b.view m.arena).fragment hr.closed, b.emptied) :=
    wholeBody_eq_ok.mpr ⟨b, h.source, h.filled, Module.extract_all h.source hr h.filled, rfl⟩
  have reset : (resetBody target b.emptied).apply m = (.ok (), m.cleared target b c) :=
    apply_resetBody_ok.mpr ⟨c, h.target, rfl⟩
  simp only [copyBody, discard_then, apply_check_bind, h.shape, body, whole]
  rw [apply_bind, reset]

/-! ## The second stage -/

/-- The copy can be put in if the source could have been put together from its instructions. -/
theorem exists_splice_cleared (h : m.Copyable source target b c) (hr : b.Readable m.arena) :
    (∃ ids m', (splice target 0 ((b.view m.arena).fragment hr.closed)).apply
      (m.cleared target b c) = (.ok ids, m')) ↔ m.Usable source b := by
  have declarations : (m.cleared target b c).declarations = m.declarations :=
    Module.declarations_cleared
  have arguments : (m.cleared target b c).argumentCount target = m.argumentCount source :=
    (Tables.argumentCount_of_declarations declarations).trans
      (Module.argumentCount_of_sameShape h.shape)
  have resolves : ∀ i : Instruction Nat,
      i.Resolves (m.cleared target b c).toTables ↔ i.Resolves m.toTables := fun i =>
    Tables.resolves_of_declarations declarations
  have place := Module.body?_cleared (b := b) h.target
  rw [Module.Usable, ← hr.forall_mem_fragment]
  constructor
  · rintro ⟨ids, m', put⟩ i hi
    obtain ⟨b', hb', -, operands, -⟩ := apply_splice_ok.mp put
    obtain rfl : b.emptied = b' := Option.some.inj (place.symm.trans hb')
    have := operands i hi
    rwa [resolves, arguments] at this
  · intro operands
    refine ⟨_, _, apply_splice_ok.mpr ⟨_, place, Nat.zero_le _, fun i hi => ?_, rfl, rfl⟩⟩
    rw [resolves, arguments]
    exact operands i hi

/-- If it cannot, nothing more happens. -/
theorem eq_cleared_of_splice {f : Fragment}
    (failed : (splice target 0 f).apply (m.cleared target b c) = (.error fault, m')) :
    m' = m.cleared target b c := by
  rcases staged_splice.refuses.of_eq failed with same | ⟨_, ⟨⟩, touched⟩
  · exact same
  · exact touched.trans Module.touch_cleared

/-! ## Both stages -/

theorem exists_copyBody_ok (h : m.Copyable source target b c) (hr : b.Readable m.arena)
    (usable : m.Usable source b) :
    ∃ ids m', (copyBody source target).apply m = (.ok ids, m') := by
  rw [apply_copyBody_of_copyable h hr]
  exact (exists_splice_cleared h hr).mpr usable

/-- A copy takes a new slot for each instruction. -/
theorem size_arena_of_copyBody (h : m.Copyable source target b c) (hr : b.Readable m.arena)
    (ok : (copyBody source target).apply m = (.ok ids, m')) :
    m'.arena.size = m.arena.size + b.code.length := by
  rw [apply_copyBody_of_copyable h hr] at ok
  obtain ⟨_, -, -, -, -, rfl⟩ := apply_splice_ok.mp ok
  simp [Module.cleared, Fragment.instructions, FileBody.fragment]

/-- If the source uses what there is not, the copy stops between the two stages. -/
theorem exists_copyBody_error (h : m.Copyable source target b c) (hr : b.Readable m.arena)
    (stray : ¬m.Usable source b) :
    ∃ fault, (copyBody source target).apply m = (.error fault, m.cleared target b c) := by
  rw [apply_copyBody_of_copyable h hr]
  rcases ran : (splice target 0 ((b.view m.arena).fragment hr.closed)).apply
    (m.cleared target b c) with ⟨fault | ids, m'⟩
  · exact ⟨fault, congrArg _ (eq_cleared_of_splice ran)⟩
  · exact absurd ((exists_splice_cleared h hr).mp ⟨ids, m', ran⟩) stray

/-- A copy that fails has done nothing, or was stopped there. -/
theorem apply_copyBody_error (linked : m.Linked)
    (failed : (copyBody source target).apply m = (.error fault, m')) :
    m' = m ∨ ∃ b c, m.Copyable source target b c ∧ ¬m.Usable source b ∧
      m' = m.cleared target b c := by
  by_cases some : ∃ b c, m.Copyable source target b c
  · obtain ⟨b, c, h⟩ := some
    have hr := (linked.tied h.source).readable
    by_cases usable : m.Usable source b
    · obtain ⟨ids, m₁, ok⟩ := exists_copyBody_ok h hr usable
      cases ok.symm.trans failed
    · obtain ⟨_, stopped⟩ := exists_copyBody_error h hr usable
      exact .inr ⟨b, c, h, usable, congrArg Prod.snd (failed.symm.trans stopped)⟩
  · obtain ⟨_, refused⟩ := apply_copyBody_of_forall_not fun b c h => some ⟨b, c, h⟩
    exact .inl (congrArg Prod.snd (failed.symm.trans refused))

/-! ## Copies -/

/-- A copy has the locals of the body that was copied and is seen as it. It may declare more, since
its own depth counts. -/
theorem exists_copy (linked : m.Linked)
    (ok : (copyBody source target).apply m = (.ok ids, m'))
    (room : m'.arena.size ≤ Arena.capacity) :
    ∃ b c b', m.Copyable source target b c ∧ m'.body? target = some b' ∧
      b'.Tied target m'.arena ∧ b.maxStack ≤ b'.maxStack ∧ b'.locals = b.locals ∧
      b'.view m'.arena = { b.view m.arena with maxStack := b'.maxStack } := by
  by_cases some : ∃ b c, m.Copyable source target b c
  · obtain ⟨b, c, h⟩ := some
    have hr := (linked.tied h.source).readable
    rw [apply_copyBody_of_copyable h hr] at ok
    obtain ⟨b', hb', tied, declared, locals, view⟩ :=
      Module.exists_body?_of_edit (linked.cleared h.target) (Module.body?_cleared h.target)
        (e := .splice 0 _) (apply_discard_ok.mpr ⟨ids, ok⟩) room
    refine ⟨b, c, b', h, hb', tied, declared, locals, view.trans ?_⟩
    have whole := FileBody.splice_fragment hr.closed
    exact congrArg (fun v : FileBody => { v with maxStack := b'.maxStack }) whole
  · obtain ⟨fault, refused⟩ := apply_copyBody_of_forall_not fun b c h => some ⟨b, c, h⟩
    cases ok.symm.trans refused

end Edit

/-- The instructions of a body use only the arguments and the locals that there are. -/
def Module.OperandsFit (m : Module) (k : MethodId) (b : LiveBody) : Prop :=
  ∀ id ∈ b.code, ∀ i, m.arena.get? id = some i → i.Fits (m.argumentCount k) b.locals.length

/-- In a module that was loaded, copying a body can fail for two reasons. If there is nothing to
copy or nothing to replace, or the methods have different shapes, nothing happens. But if the source
uses an argument or a local that it does not have, which loading does not ask, the body of the
target has been thrown away and its handles have lost their owner. So copying does all or nothing
exactly if whatever can be copied uses what there is, or the target had just such an empty body. -/
theorem copyBody_all_or_nothing_iff {f : ModuleFile} {m : Module} (loaded : f.load = .ok m)
    (n : m.Numbered) (source target : MethodId) :
    (∀ fault m', (Edit.copyBody source target).apply m = (.error fault, m') →
      m' = m ∨ ∃ b c, m.Copyable source target b c ∧ ¬m.OperandsFit source b ∧
        m' = m.cleared target b c) ∧
    ((∀ fault m', (Edit.copyBody source target).apply m = (.error fault, m') →
      m'.arena = m.arena ∧ ∀ k, m'.body? k = m.body? k) ↔
        ∀ b c, m.Copyable source target b c → m.OperandsFit source b ∨ c = b.emptied) := by
  obtain ⟨check, rfl⟩ := ModuleFile.load_eq_ok.mp loaded
  have linked := Placement.linked_build check n
  have usable_iff : ∀ b, f.build.body? source = some b →
      (f.build.Usable source b ↔ f.build.OperandsFit source b) := by
    intro b hb
    refine forall₂_congr fun id hid => forall₂_congr fun i hi => and_iff_right ?_
    exact Placement.resolves_build check n.slots hb hid hi
  refine ⟨fun fault m' failed => ?_, fun unchanged b c h => ?_, fun fits fault m' failed => ?_⟩
  · rcases Edit.apply_copyBody_error linked failed with same | ⟨b, c, h, stray, stopped⟩
    · exact .inl same
    · exact .inr ⟨b, c, h, (usable_iff b h.source).not.mp stray, stopped⟩
  · by_cases fits : f.build.OperandsFit source b
    · exact .inl fits
    · obtain ⟨fault, stopped⟩ := Edit.exists_copyBody_error h (linked.tied h.source).readable
        ((usable_iff b h.source).not.mpr fits)
      have same := (unchanged fault _ stopped).2 target
      rw [Module.body?_cleared h.target, h.target] at same
      exact .inr (Option.some.inj same).symm
  · rcases Edit.apply_copyBody_error linked failed with rfl | ⟨b, c, h, stray, rfl⟩
    · exact ⟨rfl, fun _ => rfl⟩
    · obtain rfl := (fits b c h).resolve_left ((usable_iff b h.source).not.mp stray)
      refine ⟨rfl, fun k => ?_⟩
      by_cases hk : k = target
      · rw [hk, Module.body?_cleared h.target, h.target]
      · exact Module.body?_withBody_of_ne hk

namespace Sample

/-- The file of a module with two methods of the same shape, one of which loads a local that it does
not have. -/
def unchecked : ModuleFile :=
  { file with methods := #[
      { stub "start" with body := some { (Body.empty : FileBody) with
          maxStack := 1, code := [.loc .load 0, .pop, .ret] } },
      stub "stop"] }

theorem load_unchecked : unchecked.load = .ok unchecked.build := by decide +kernel

/-- The module once the body of the target is gone. -/
def halfway : Module :=
  unchecked.build.cleared ⟨1⟩ ⟨1, false, [], [⟨0⟩, ⟨1⟩, ⟨2⟩], []⟩ ⟨0, false, [], [⟨3⟩], []⟩

theorem apply_copyBody_unchecked : (Edit.copyBody ⟨0⟩ ⟨1⟩).apply unchecked.build =
    (.error (.localOutOfRange "Counter::stop" 0 0), halfway) := by decide +kernel

end Sample

/-- An instance: the source loads a local that it does not have, and the target is cleared. -/
theorem copyBody_all_or_nothing_iff_sample : ∃ b c,
    Sample.unchecked.build.Copyable ⟨0⟩ ⟨1⟩ b c ∧ ¬Sample.unchecked.build.OperandsFit ⟨0⟩ b ∧
      Sample.halfway = Sample.unchecked.build.cleared ⟨1⟩ b c := by
  have n : Sample.unchecked.build.Numbered := by constructor <;> decide
  obtain ⟨failing, -⟩ := copyBody_all_or_nothing_iff Sample.load_unchecked n ⟨0⟩ ⟨1⟩
  have changed : Sample.halfway ≠ Sample.unchecked.build := by decide
  exact (failing _ _ Sample.apply_copyBody_unchecked).resolve_left changed

/-- So a copy that fails can take away the body of its target. -/
theorem copyBody_fails_halfway :
    Sample.unchecked.load = .ok Sample.unchecked.build ∧
      ∃ m', (Edit.copyBody ⟨0⟩ ⟨1⟩).apply Sample.unchecked.build =
          (.error (.localOutOfRange "Counter::stop" 0 0), m') ∧
        Sample.unchecked.build.body? ⟨1⟩ = some ⟨0, false, [], [⟨3⟩], []⟩ ∧
        m'.body? ⟨1⟩ = some ⟨1, false, [], [], []⟩ ∧
        Sample.unchecked.build.arena.owner? ⟨3⟩ = some ⟨1⟩ ∧ m'.arena.owner? ⟨3⟩ = none := by
  refine ⟨Sample.load_unchecked, _, Sample.apply_copyBody_unchecked, ?_⟩
  decide

end Graft
