import Graft.Proofs.Isolation
import Graft.Proofs.Transactions

/-!
# Operations on different methods

Two operations that change different methods can change places in a batch, as long as neither copies
from the method that the other changes. Whatever the one does is hidden by the mask of its method,
and the other ignores this method. So each goes the same way whether it comes first or last, and the
two files that the drafts are stored in are the same with either method masked.
-/

namespace Graft

/-! ## Masks of both methods -/

/-- Two files are the same if they are so with either of two methods masked. -/
theorem Module.view_eq_of_masks {m m' : Module} {j k : MethodId} (ne : j ≠ k)
    (hj : (m'.mask j).view = (m.mask j).view) (hk : (m'.mask k).view = (m.mask k).view) :
    m'.view = m.view := by
  rw [view_mask, view_mask] at hj hk
  have away : ∀ {i : MethodId} {n : Nat}, n ≠ i.index →
      m'.view.modifyMethod i Method.masked = m.view.modifyMethod i Method.masked →
      m'.view.methods[n]? = m.view.methods[n]? := by
    intro i n hn same
    have entry := congrArg (fun f : ModuleFile => f.methods[n]?) same
    simpa [ModuleFile.modifyMethod, Array.getElem?_modify, hn.symm] using entry
  have methods : m'.view.methods = m.view.methods := by
    refine Array.ext_getElem? fun n => ?_
    by_cases hn : n = j.index
    · exact away (fun same => ne (MethodId.index_inj.mp (hn.symm.trans same))) hk
    · exact away hn hj
  have rest : { m'.view with methods := m.view.methods } = m.view :=
    congrArg (fun f : ModuleFile => { f with methods := m.view.methods }) hj
  rw [← rest, ← methods]

/-! ## What masks hide -/

/-- What the edit does is not seen if `k` is masked. It may add slots. -/
def Contract.hidden (k : MethodId) : Contract :=
  .always fun m m' => m.arena.size ≤ m'.arena.size ∧
    (m'.arena.size ≤ Arena.capacity → (m'.mask k).view = (m.mask k).view)

namespace Edit

open Graft.Module Plan

variable {α : Type} {m : Module} {k : MethodId} {o : Operation}

theorem Contained.maskedBy {e : Edit α} (he : e.Contained k) (h : m.Storable) :
    e.MeetsAt (.hidden k) m := by
  refine meetsAt_always.mpr ⟨(he.grows.le m).slots, fun room => ?_⟩
  exact (he.keeps m h.linked.claimed room).2.view_mask h

theorem maskedBy_makePublic : (makePublic k).MeetsAt (.hidden k) m :=
  meetsAt_always.mpr ⟨le_rfl, fun _ => congrArg Module.view mask_makePublic⟩

/-- Looking up names is not seen at all. -/
theorem maskedBy_ask_bind {f : Tables Members LiveBody → Except Fault α} {g : α → Edit Unit}
    (hg : ∀ a, f m.toTables = .ok a → (g a).MeetsAt (.hidden k) m) :
    (ask f >>= g).MeetsAt (.hidden k) m :=
  .check_bind (fun _ _ => ⟨le_rfl, fun _ => rfl⟩) hg

/-- A mask hides all operations that change its method. -/
theorem maskedBy_operation (h : m.Storable) (aims : o.AimsAt m.toTables k) :
    (operation o).MeetsAt (.hidden k) m := by
  obtain ⟨r, target, found⟩ := aims
  have resolve_bind : ∀ {g : MethodId → Edit Unit}, (g k).MeetsAt (.hidden k) m →
      (ask (fun t => r.resolve t) >>= g).MeetsAt (.hidden k) m := by
    intro g hg
    refine maskedBy_ask_bind fun i hi => ?_
    cases found.symm.trans hi
    exact hg
  have contained : ∀ {e : Edit Unit}, e.Contained k → e.MeetsAt (.hidden k) m :=
    fun he => he.maskedBy h
  cases o <;> cases target
  case setReturn =>
    exact resolve_bind <| maskedBy_ask_bind fun _ _ => contained contained_returnLiteral.discard
  case makePublic => exact resolve_bind maskedBy_makePublic
  case injectCall =>
    exact resolve_bind <| maskedBy_ask_bind fun _ _ => contained contained_injectCall.discard
  case removeRange => exact resolve_bind <| contained contained_removeRange.discard
  case pad => exact resolve_bind <| contained contained_pad.discard
  case insert =>
    exact resolve_bind <| maskedBy_ask_bind fun _ _ => contained contained_insertAt.discard
  case replace =>
    exact resolve_bind <| maskedBy_ask_bind fun _ _ => contained contained_replaceAt.discard
  case copyRange =>
    exact resolve_bind <| maskedBy_ask_bind fun _ _ => contained contained_copyRange.discard

end Edit

/-! ## Operations apart -/

/-- The operations change different methods, and neither copies from the one that the other
changes. -/
structure Plan.Operation.Apart {β : Type} (t : Tables Members β) (o₁ o₂ : Operation)
    (j k : MethodId) : Prop where
  first : o₁.AimsAt t j
  second : o₂.AimsAt t k
  ne : j ≠ k
  unread : ¬ o₁.CopiesFrom t k
  unread' : ¬ o₂.CopiesFrom t j

namespace Plan.Operation

variable {β β' : Type} {t : Tables Members β} {t' : Tables Members β'} {o o₁ o₂ : Operation}
  {j k : MethodId}

theorem Apart.symm (h : Apart t o₁ o₂ j k) : Apart t o₂ o₁ k j :=
  ⟨h.second, h.first, h.ne.symm, h.unread', h.unread⟩

theorem aimsAt_of_outline (same : t'.outline = t.outline) : o.AimsAt t' k ↔ o.AimsAt t k := by
  simp only [AimsAt, MethodRef.resolve_of_outline same]

theorem copiesFrom_of_outline (same : t'.outline = t.outline) :
    o.CopiesFrom t' k ↔ o.CopiesFrom t k := by
  simp only [CopiesFrom, MethodRef.resolve_of_outline same]

end Plan.Operation

/-- A batch goes on after an attempt at a patch: it was applied, or skipped for the given reason. -/
structure Patch.Goes (p : Patch) (x : Option Fault) (m m' : Module) : Prop where
  ran : (Batch.attempt p).apply m = (x.elim (.ok ()) .error, m')
  soft : ∀ fault, x = some fault → fault.isSoft = true

namespace Batch

open Graft.Module Plan

variable {m m' m'' : Module} {o o₁ o₂ : Operation} {j k : MethodId} {p q : Patch}
  {x y : Option Fault} {c : List (Patch × Option Fault)}

/-- An attempt changes nothing that is seen if the method of the operation is masked. -/
theorem twin_mask_attempt (h : m.Storable) (untouched : m.touched = [])
    (unlabelled : o.Unlabelled) (aims : o.AimsAt m.toTables k)
    (room : ((Edit.operation o).apply m).2.arena.size ≤ Arena.capacity) :
    Twin (((attempt (.ofOperation o)).apply m).2.mask k) (m.mask k) := by
  have storable := storable_attempt h unlabelled room
  obtain ⟨d, ok, -, run⟩ | ⟨fault, run⟩ := apply_attempt (.ofOperation o) m <;>
    rw [run] at storable ⊢
  · obtain ⟨slots, view⟩ := Edit.meetsAt_always.mp (Edit.maskedBy_operation h aims)
    have ok : (Edit.operation o).apply m = (.ok (), d) := ok
    rw [ok] at room slots view
    refine ⟨storable.mask, h.mask, (view room).symm, untouched, ?_⟩
    show (m.arena.disown k).size ≤ (d.arena.disown k).size
    rwa [Arena.size_disown, Arena.size_disown]
  · exact h.mask.twin_self

/-- An attempt at an operation goes the same way before and after one at another operation. With the
method of the other masked it comes to the same; with its own masked nothing has changed. -/
theorem attempt_apart (h : m.Storable) (untouched : m.touched = [])
    (unlabelled : o₁.Unlabelled) (unlabelled' : o₂.Unlabelled)
    (apart : Operation.Apart m.toTables o₁ o₂ j k)
    (ran : ((attempt (.ofOperation o₂)).apply m).2 = m')
    (room : ((Edit.operation o₂).apply m).2.arena.size ≤ Arena.capacity)
    (room' : ((Edit.operation o₁).apply m').2.arena.size ≤ Arena.capacity) :
    Accord ((attempt (.ofOperation o₁)).apply m').1 ((attempt (.ofOperation o₁)).apply m).1 ∧
      (((attempt (.ofOperation o₁)).apply m').2.mask k).view =
        (((attempt (.ofOperation o₁)).apply m).2.mask k).view ∧
      (((attempt (.ofOperation o₁)).apply m').2.mask j).view = (m'.mask j).view := by
  have twin : Twin (m'.mask k) (m.mask k) :=
    ran ▸ twin_mask_attempt h untouched unlabelled' apart.second room
  have storable : m'.Storable := ran ▸ storable_attempt h unlabelled' room
  -- the other operation has changed nothing that the names of this one go by
  have outline : m'.outline = m.outline := by
    rw [← outline_mask (k := k), ← twin.outline, outline_mask]
  have aims := (Operation.aimsAt_of_outline outline).mpr apart.first
  have unread := (Operation.copiesFrom_of_outline (k := k) outline).not.mpr apart.unread
  have untouched' : m'.touched = [] := twin.touched.symm.trans untouched
  have slots : ((Edit.operation o₁).apply (m'.mask k)).2.arena.size ≤ Arena.capacity := by
    have masks : m'.Masks k (m'.mask k) := ⟨rfl, by simp [untouched']⟩
    rw [(Edit.ignores_operation masks aims apart.ne unread).left.eq]
    exact Arena.size_disown.trans_le room'
  obtain ⟨accord, after⟩ := twin_attempt twin unlabelled slots
  rw [apply_attempt_mask aims apart.ne unread untouched',
    apply_attempt_mask apart.first apart.ne apart.unread untouched] at accord after
  have still := twin_mask_attempt storable untouched' unlabelled aims room'
  exact ⟨accord, after.view.symm, still.view.symm⟩

/-! ## Courses of two patches -/

theorem course_cons : Course m ((p, x) :: c) m'' ↔ ∃ m', p.Goes x m m' ∧ Course m' c m'' := by
  constructor
  · intro course
    cases course with
    | applied passes rest => exact ⟨_, ⟨Patch.apply_attempt_ok.mpr passes, nofun⟩, rest⟩
    | skipped fails soft rest =>
      refine ⟨_, ⟨Patch.apply_attempt_error.mpr ⟨fails, rfl⟩, ?_⟩, rest⟩
      rintro _ ⟨⟩
      exact soft
  · rintro ⟨m', ⟨ran, soft⟩, rest⟩
    cases x with
    | none => exact .applied (Patch.apply_attempt_ok.mp ran) rest
    | some fault =>
      obtain ⟨fails, rfl⟩ := Patch.apply_attempt_error.mp ran
      exact .skipped fails (soft fault rfl) rest

/-- What a course tells of two patches. -/
theorem exists_pair (patches : c.map Prod.fst = [p, q]) : ∃ x y, c = [(p, x), (q, y)] := by
  obtain ⟨⟨_, x⟩, c₁, rfl, ⟨⟩, rest⟩ := List.map_eq_cons_iff.mp patches
  obtain ⟨⟨_, y⟩, c₂, rfl, ⟨⟩, none⟩ := List.map_eq_cons_iff.mp rest
  obtain rfl := List.map_eq_nil_iff.mp none
  exact ⟨x, y, rfl⟩

theorem course_pair : Course m [(p, x), (q, y)] m'' ↔ ∃ m', p.Goes x m m' ∧ q.Goes y m' m'' := by
  rw [course_cons]
  refine exists_congr fun m' => and_congr_right fun _ => ?_
  rw [course_cons]
  constructor
  · rintro ⟨_, goes, ⟨⟩⟩
    exact goes
  · exact fun goes => ⟨_, goes, .done⟩

/-- Attempts that accord both go on, or neither does. -/
theorem goes_of_accord {d d' e : Module} (goes : p.Goes x d e)
    (accord : Accord ((attempt p).apply d).1 ((attempt p).apply d').1) :
    p.Goes x d' ((attempt p).apply d').2 := by
  refine ⟨Prod.ext ?_ rfl, goes.soft⟩
  rw [goes.ran] at accord
  cases x with
  | none => exact accord.eq_ok.mpr rfl
  | some fault =>
    generalize ((attempt p).apply d').1 = a at accord ⊢
    cases accord with
    | same => rfl
    | ending hard => exact absurd (goes.soft fault rfl) (by simp [hard])

/-- If a batch goes on after the first of two patches, then the second one makes a draft too. -/
theorem size_drafts_pair {d : Module}
    (room : ∀ d ∈ drafts [p, q] m, d.arena.size ≤ Arena.capacity) :
    (p.edit.apply m).2.arena.size ≤ Arena.capacity ∧
      ∀ x, p.Goes x m d → (q.edit.apply d).2.arena.size ≤ Arena.capacity := by
  rw [drafts, List.forall_mem_cons] at room
  refine ⟨room.1, fun x goes => ?_⟩
  have later := room.2
  rw [goes.ran] at later
  cases x with
  | none => exact later _ List.mem_cons_self
  | some fault =>
    simp only [Option.elim_some, goes.soft fault rfl, if_true] at later
    exact later _ List.mem_cons_self

/-- Two operations on different methods can change places. -/
theorem course_swap (h : m.Storable) (untouched : m.touched = [])
    (unlabelled : o₁.Unlabelled) (unlabelled' : o₂.Unlabelled)
    (apart : Operation.Apart m.toTables o₁ o₂ j k)
    (room : ∀ d ∈ drafts [.ofOperation o₁, .ofOperation o₂] m, d.arena.size ≤ Arena.capacity)
    (room' : ∀ d ∈ drafts [.ofOperation o₂, .ofOperation o₁] m, d.arena.size ≤ Arena.capacity)
    (course : Course m [(.ofOperation o₁, x), (.ofOperation o₂, y)] m'') :
    ∃ d, Course m [(.ofOperation o₂, y), (.ofOperation o₁, x)] d ∧ d.view = m''.view := by
  obtain ⟨m₁, goes₁, goes₁₂⟩ := course_pair.mp course
  obtain ⟨room₁, room₁₂⟩ := size_drafts_pair room
  obtain ⟨room₂, room₂₁⟩ := size_drafts_pair room'
  have ran₁ := congrArg Prod.snd goes₁.ran
  -- the second operation goes the same way if it comes first
  obtain ⟨accord₂, seen₂, still₂⟩ :=
    attempt_apart h untouched unlabelled' unlabelled apart.symm ran₁ room₁ (room₁₂ x goes₁)
  have goes₂ := goes_of_accord goes₁₂ accord₂
  -- and so does the first if it comes last
  obtain ⟨accord₁, seen₁, still₁⟩ :=
    attempt_apart h untouched unlabelled unlabelled' apart rfl room₂ (room₂₁ y goes₂)
  have goes₂₁ := goes_of_accord goes₁ accord₁.symm
  refine ⟨_, course_pair.mpr ⟨_, goes₂, goes₂₁⟩, ?_⟩
  rw [ran₁] at seen₁
  rw [goes₁₂.ran] at seen₂ still₂
  exact view_eq_of_masks apart.ne (still₁.trans seen₂.symm) (seen₁.trans still₂.symm)

/-! ## Batches of two patches -/

/-- If a batch of the one patch and then the other runs to its end, then so does a batch of the
other and then the one. What was applied is applied, what was skipped is skipped for the same
reason, and the module is the same in the end. -/
def Exchange (p q : Patch) (m : Module) : Prop :=
  ∀ report final, (run [p, q]).apply m = (.ok report, final) →
    ∃ x y d d', Course m.clearTouched [(p, x), (q, y)] d ∧ report = reportOf [(p, x), (q, y)] ∧
      Course m.clearTouched [(q, y), (p, x)] d' ∧
      (run [q, p]).apply m = (.ok (reportOf [(q, y), (p, x)]), final)

theorem exchange_of_apart (h : m.Storable) (unlabelled : o₁.Unlabelled)
    (unlabelled' : o₂.Unlabelled) (apart : Operation.Apart m.toTables o₁ o₂ j k)
    (room : ∀ d ∈ drafts ([o₁, o₂].map .ofOperation) m.clearTouched,
      d.arena.size ≤ Arena.capacity)
    (room' : ∀ d ∈ drafts ([o₂, o₁].map .ofOperation) m.clearTouched,
      d.arena.size ≤ Arena.capacity) :
    Exchange (.ofOperation o₁) (.ofOperation o₂) m := by
  intro report final completed
  have both : ∀ o ∈ [o₁, o₂], o.Unlabelled := by simp [unlabelled, unlabelled']
  have both' : ∀ o ∈ [o₂, o₁], o.Unlabelled := by simp [unlabelled, unlabelled']
  obtain ⟨d, ran, rfl⟩ := (apply_run_ok h both room).mp completed
  obtain ⟨c, patches, course, rfl⟩ := runFrom_eq_ok.mp ran
  obtain ⟨x, y, rfl⟩ := exists_pair patches
  obtain ⟨d', course', view⟩ :=
    course_swap h.clearTouched rfl unlabelled unlabelled' apart room room' course
  refine ⟨x, y, d, d', course, rfl, course', ?_⟩
  refine (apply_run_ok h both' room').mpr ⟨d', ?_, congrArg _ view.symm⟩
  exact runFrom_eq_ok.mpr ⟨_, rfl, course', rfl⟩

end Batch

/-- Operations that change different methods of a loaded module commute, if neither copies from the
method that the other changes. Neither names an instruction that is there, as no plan does. -/
theorem operations_commute {m : Module} {o₁ o₂ : Plan.Operation} {j k : MethodId}
    (unlabelled : o₁.Unlabelled) (unlabelled' : o₂.Unlabelled)
    (loaded : m.Loaded) (room : m.arena.size ≤ Arena.capacity)
    (apart : Plan.Operation.Apart m.toTables o₁ o₂ j k)
    (fits : Batch.Fits ([o₁, o₂].map .ofOperation) m)
    (fits' : Batch.Fits ([o₂, o₁].map .ofOperation) m) :
    Batch.Exchange (.ofOperation o₁) (.ofOperation o₂) m ∧
      Batch.Exchange (.ofOperation o₂) (.ofOperation o₁) m :=
  ⟨Batch.exchange_of_apart (loaded.storable room) unlabelled unlabelled' apart fits.drafts
      fits'.drafts,
    Batch.exchange_of_apart (loaded.storable room) unlabelled' unlabelled apart.symm fits'.drafts
      fits.drafts⟩

namespace Sample

open Graft.Module Plan

/-- A method that does nothing but return. -/
def stub (name : String) : Method FileBody where
  owner := ⟨0⟩
  name
  flags := ⟨MethodFlags.visible ||| MethodFlags.static⟩
  signature := ⟨.primitive .void, [], []⟩
  body := some { (Body.empty : FileBody) with code := [.ret] }

/-- The file of a module with two methods. -/
def pair : ModuleFile := { file with methods := #[stub "start", stub "stop"] }

/-- Put an instruction in front of a method. -/
def front (name : String) : Operation := .insert ⟨"Counter", name⟩ 0 (.plain .nop)

theorem unlabelled_front (name : String) : (front name).Unlabelled := by
  rintro _ ⟨⟩
  rfl

/-- The method does nothing but return, and its handle is `x`. -/
structure Stub (m : Module) (k : MethodId) (x : InsnId) : Prop where
  body : m.body? k = some { (Body.empty : LiveBody) with code := [x] }
  slot : m.arena.slot? x = some ⟨.ret, some k⟩
  void : m.givesValue k = false
  room : m.arena.size < Arena.capacity
  untouched : m.touched = []

variable {m : Module} {k : MethodId} {x : InsnId} {name : String}

/-- The body with a new handle in front. -/
def fronted (m : Module) (x : InsnId) : LiveBody :=
  { (Body.empty : LiveBody) with code := [.ofIndex m.arena.size, x] }

/-- The module with this body. -/
def withFront (m : Module) (k : MethodId) (x : InsnId) : Module :=
  (m.touch k).withBody k (fronted m x) (m.arena.append k [.nop])

namespace Stub

variable (h : Stub m k x)
include h

theorem slots : (withFront m k x).arena.slot? (.ofIndex m.arena.size) = some ⟨.nop, some k⟩ ∧
    (withFront m k x).arena.slot? x = some ⟨.ret, some k⟩ ∧ x ≠ .ofIndex m.arena.size := by
  have index := InsnId.index_ofIndex h.room
  have inside : x.index < m.arena.size := (Array.getElem?_eq_some_iff.mp h.slot).1
  refine ⟨?_, (Arena.slot?_append_of_lt inside).trans h.slot, fun same => ?_⟩
  · show (m.arena.slots ++ [Slot.mk .nop (some k)])[(InsnId.ofIndex m.arena.size).index]? = _
    rw [index]
    simp [Arena.size]
  · rw [same, index] at inside
    exact lt_irrefl _ inside

theorem body?_withFront : (withFront m k x).body? k = some (fronted m x) :=
  body?_withBody_self (m := m.touch k) h.body

theorem linked : (fronted m x).Linked (withFront m k x).arena := by
  obtain ⟨new, old, distinct⟩ := h.slots
  refine ⟨by simp [fronted, distinct.symm], fun id hid i hi l hl => ?_, nofun⟩
  rcases List.mem_pair.mp hid with rfl | rfl
  · rw [Arena.get?, new] at hi
    cases hi
    cases hl
  · rw [Arena.get?, old] at hi
    cases hi
    cases hl

theorem givesValue_withFront : (withFront m k x).givesValue k = false :=
  have same : (withFront m k x).declarations = m.declarations := declarations_withBody
  (Tables.givesValue_of_outline (Tables.outline_of_declarations same)).trans h.void

theorem simulate : (withFront m k x).simulate k = .ok 0 := by
  obtain ⟨new, old, -⟩ := h.slots
  have hnew : (withFront m k x).arena.get? (.ofIndex m.arena.size) = some .nop := by
    rw [Arena.get?, new]
    rfl
  have hold : (withFront m k x).arena.get? x = some .ret := by
    rw [Arena.get?, old]
    rfl
  have returns : (withFront m k x).stackEffect k (.ret : Instruction InsnId) = ⟨0, 0⟩ := by
    simp [Tables.stackEffect, h.givesValue_withFront]
  rw [simulate_eq h.body?_withFront h.linked (by simp [fronted])]
  refine visit_instruction h.linked (p := 0) (i := .nop) (by simp [fronted]) (by simp [fronted]) rfl
    hnew ?_ ?_
  · show (Instruction.nop : Instruction InsnId).Executable ⟨0, 0⟩ 2 0 0
    decide
  refine visit_instruction h.linked (p := 1) (i := .ret) (by simp [fronted]) (by simp [fronted]) rfl
    hold ?_ ?_
  · rw [returns]
    show (Instruction.ret : Instruction InsnId).Executable ⟨0, 0⟩ 2 1 0
    decide
  rw [returns]
  exact Simulation.visit_nil

theorem verified : (withFront m k x).Verified k (fronted m x) 0 := by
  obtain ⟨new, old, -⟩ := h.slots
  refine ⟨nofun, fun id hid => ?_, .of_plain h.linked (fun id hid => ?_) nofun, h.simulate,
    Nat.zero_le _⟩ <;> rcases List.mem_pair.mp hid with rfl | rfl
  · rw [Arena.owner?, new]
    rfl
  · rw [Arena.owner?, old]
    rfl
  · rw [Arena.get?, new]
    rfl
  · rw [Arena.get?, old]
    rfl

theorem apply_front (target : (MethodRef.mk "Counter" name).resolve m.toTables = .ok k) :
    (Edit.operation (front name)).apply m = (.ok (), withFront m k x) := by
  have deep : (withFront m k x).raisedDepth k (fronted m x) = 0 := by
    rw [raisedDepth, h.simulate]
    rfl
  have rebuilt : m.rebuilt k (fronted m x) (m.arena.append k [.nop]) = withFront m k x := by
    rw [rebuilt_eq h.body]
    exact congrArg (fun depth => (m.touch k).withBody k { fronted m x with maxStack := depth }
      (m.arena.append k [.nop])) deep
  have inserted := (Edit.apply_insertAt_ok (i := .nop)).mpr ⟨_, h.body, Nat.zero_le _,
    ⟨.of_none rfl rfl rfl, .of_none rfl rfl, List.forall_mem_nil _⟩, rfl, rebuilt.symm⟩
  exact Edit.apply_check_bind_ok.mpr ⟨_, target, Edit.apply_check_bind_ok.mpr
    ⟨.nop, rfl, Edit.apply_discard_ok.mpr ⟨_, inserted⟩⟩⟩

theorem attempt_front (target : (MethodRef.mk "Counter" name).resolve m.toTables = .ok k) :
    (Batch.attempt (.ofOperation (front name))).apply m =
      (.ok (), (withFront m k x).clearTouched) := by
  have touched : (withFront m k x).touched = [k] := by
    show insertId k m.touched = [k]
    rw [h.untouched]
    rfl
  have verify : (withFront m k x).verifyBodies (withFront m k x).touched = .ok () := by
    rw [touched]
    exact verifyBodies_eq_ok.mpr (List.forall_mem_singleton.mpr
      ⟨_, _, h.body?_withFront, h.verified⟩)
  rw [Batch.apply_attempt_of_ok (p := .ofOperation (front name)) (h.apply_front target), verify]

end Stub

theorem unlabelled_fronts {name name' : String} :
    ∀ o ∈ [front name, front name'], o.Unlabelled := by
  simp [unlabelled_front]

section

variable {k' : MethodId} {x' : InsnId} {name' : String} (h : Stub m k x)
  (target : (MethodRef.mk "Counter" name).resolve m.toTables = .ok k)
  (h' : Stub (withFront m k x).clearTouched k' x')
  (target' : (MethodRef.mk "Counter" name').resolve (withFront m k x).clearTouched.toTables =
    .ok k')
include h target h' target'

theorem drafts_fronts : Batch.drafts ([front name, front name'].map .ofOperation) m =
    [withFront m k x, withFront (withFront m k x).clearTouched k' x'] := by
  simp only [List.map_cons, Batch.drafts, h.attempt_front target, h'.attempt_front target']
  exact congrArg₂ (fun a b => [a, b]) (congrArg Prod.snd (h.apply_front target))
    (congrArg Prod.snd (h'.apply_front target'))

theorem fits_fronts (storable : m.Storable) :
    Batch.Fits ([front name, front name'].map .ofOperation) m := by
  have start : m.clearTouched = m := congrArg (fun touched => { m with touched }) h.untouched.symm
  refine .of_storable storable unlabelled_fronts fun d hd => ?_
  rw [start, drafts_fronts h target h' target'] at hd
  rcases List.mem_pair.mp hd with rfl | rfl
  · exact h'.room.le
  · exact (Arena.size_append ..).trans_le h'.room

theorem run_fronts (storable : m.Storable) :
    ∃ final, (Batch.run ([front name, front name'].map .ofOperation)).apply m =
      (.ok ⟨[(front name).name, (front name').name], []⟩, final) := by
  have start : m.clearTouched = m := congrArg (fun touched => { m with touched }) h.untouched.symm
  have fits := fits_fronts h target h' target' storable
  refine ⟨_, (Batch.apply_run_ok storable unlabelled_fronts fits.drafts).mpr
    ⟨(withFront (withFront m k x).clearTouched k' x').clearTouched, ?_, rfl⟩⟩
  rw [start]
  simp only [List.map_cons, Batch.apply_runFrom_cons, h.attempt_front target,
    h'.attempt_front target']
  rfl

end

theorem loaded_pair : pair.build.Loaded := by
  have checked : pair.check = .ok () := by decide +kernel
  have writable : pair.Writable := by decide
  have read : ModuleFile.ofBytes pair.encode = .ok pair := by
    rw [ModuleFile.ofBytes_eq_ok, ModuleFile.decode_eq_ok, List.append_nil]
    exact ⟨writable, rfl⟩
  exact Module.loaded_of_ofBytes read (ModuleFile.load_eq_ok.mpr ⟨checked, rfl⟩)

theorem room_pair : pair.build.arena.size ≤ Arena.capacity := by decide

theorem stub_start : Stub pair.build ⟨0⟩ ⟨0⟩ := by constructor <;> decide

theorem stub_stop : Stub pair.build ⟨1⟩ ⟨1⟩ := by constructor <;> decide

theorem stub_start_stop : Stub (withFront pair.build ⟨0⟩ ⟨0⟩).clearTouched ⟨1⟩ ⟨1⟩ := by
  constructor <;> decide

theorem stub_stop_start : Stub (withFront pair.build ⟨1⟩ ⟨1⟩).clearTouched ⟨0⟩ ⟨0⟩ := by
  constructor <;> decide

theorem apart_fronts :
    Operation.Apart pair.build.toTables (front "start") (front "stop") ⟨0⟩ ⟨1⟩ where
  first := ⟨_, rfl, by decide⟩
  second := ⟨_, rfl, by decide⟩
  ne := by decide
  unread := fun ⟨_, source, _⟩ => nomatch source
  unread' := fun ⟨_, source, _⟩ => nomatch source

end Sample

/-- An instance: an instruction is put in front of either of two methods. -/
theorem operations_commute_sample :
    ∃ final,
      (Batch.run ([Sample.front "start", Sample.front "stop"].map .ofOperation)).apply
        Sample.pair.build =
          (.ok ⟨["insert Counter::start 0 nop", "insert Counter::stop 0 nop"], []⟩, final) ∧
      (Batch.run ([Sample.front "stop", Sample.front "start"].map .ofOperation)).apply
        Sample.pair.build =
          (.ok ⟨["insert Counter::stop 0 nop", "insert Counter::start 0 nop"], []⟩, final) := by
  have storable := Sample.loaded_pair.storable Sample.room_pair
  have fits : Batch.Fits ([Sample.front "start", Sample.front "stop"].map .ofOperation)
      Sample.pair.build :=
    Sample.fits_fronts Sample.stub_start (by decide +kernel) Sample.stub_start_stop
      (by decide +kernel) storable
  have fits' : Batch.Fits ([Sample.front "stop", Sample.front "start"].map .ofOperation)
      Sample.pair.build :=
    Sample.fits_fronts Sample.stub_stop (by decide +kernel) Sample.stub_stop_start
      (by decide +kernel) storable
  obtain ⟨final, ran⟩ : ∃ final, (Batch.run ([Sample.front "start", Sample.front "stop"].map
      .ofOperation)).apply Sample.pair.build = (.ok ⟨[_, _], []⟩, final) :=
    Sample.run_fronts Sample.stub_start (by decide +kernel) Sample.stub_start_stop
      (by decide +kernel) storable
  obtain ⟨x, y, d, d', -, reported, -, exchanged⟩ := (operations_commute
    (Sample.unlabelled_front _) (Sample.unlabelled_front _) Sample.loaded_pair
    Sample.room_pair Sample.apart_fronts fits fits').1 _ _ ran
  -- neither operation was skipped, so neither is in the other batch
  have skipped := congrArg Report.skipped reported
  refine ⟨final, ran, ?_⟩
  cases x with
  | some fault => cases skipped
  | none =>
    cases y with
    | some fault => cases skipped
    | none => exact exchanged

end Graft
