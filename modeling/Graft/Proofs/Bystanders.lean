import Graft.Proofs.Commuting
import Graft.Proofs.Listings
import Graft.Proofs.Session

/-!
# Methods that an edit is not about

An edit of one body leaves the other methods as they were. Their entries and slots are the same, and
so is what is shown of them and what verification says about them, be it a depth or a fault. The
listing and the verdict read nothing but the entry of the method, the slots of its handles, and what
the tables declare of the entries that its instructions mention.
-/

namespace Graft

/-- Steps that are the same for all members of a list take a fold to the same end. -/
theorem foldlM_congr {α σ ε : Type} {f g : σ → α → Except ε σ} {xs : List α}
    (same : ∀ x ∈ xs, ∀ s, g s x = f s x) (s : σ) : xs.foldlM g s = xs.foldlM f s := by
  induction xs generalizing s with
  | nil => rfl
  | cons x xs ih =>
    rw [List.foldlM_cons, List.foldlM_cons, same x List.mem_cons_self]
    have rest : ∀ s, xs.foldlM g s = xs.foldlM f s :=
      ih fun y hy => same y (List.mem_cons_of_mem x hy)
    rw [funext rest]

/-- The operands of an instruction say the same of it in both modules. -/
structure Instruction.SameOperands (j : MethodId) (m m' : Module) (i : Instruction InsnId) :
    Prop where
  text : ∀ label, m'.operandText label i = m.operandText label i
  effect : m'.stackEffect j i = m.stackEffect j i
  check : ∀ locals, m'.checkOperands j locals i = m.checkOperands j locals i

namespace Module

variable {m m' : Module} {j k : MethodId} {b : LiveBody} {d : Method LiveBody}

/-- Whoever looks at the method `j` sees the same in both modules. -/
structure SameSight (j : MethodId) (m m' : Module) : Prop where
  entry : m'.method? j = m.method? j
  name : m'.methodName j = m.methodName j
  types : m'.renderType = m.renderType
  slots : ∀ b, m.body? j = some b → ∀ id ∈ b.code, m'.arena.slot? id = m.arena.slot? id
  operands : ∀ b, m.body? j = some b → ∀ id ∈ b.code, ∀ i, m.instruction? id = some i →
    i.SameOperands j m m'

/-- The method `j` is in the second module what it was in the first: it is declared in the same way
and has the same body, it owns the same slots with the same instructions, it is listed in the same
way, and verification says the same about it. -/
structure Intact (j : MethodId) (m m' : Module) : Prop where
  entry : m'.method? j = m.method? j
  owned : ∀ id, m'.arena.owner? id = some j ↔ m.arena.owner? id = some j
  slots : ∀ id, m.arena.owner? id = some j → m'.arena.slot? id = m.arena.slot? id
  listing : m'.describe j = m.describe j
  verdict : m'.verifyBody j = m.verifyBody j

/-! ## What is shown -/

namespace SameSight

variable (h : SameSight j m m')
include h

theorem body? : m'.body? j = m.body? j := by
  rw [Module.body?, h.entry, Module.body?]

theorem instruction? (hb : m.body? j = some b) {id : InsnId} (hid : id ∈ b.code) :
    m'.instruction? id = m.instruction? id :=
  Arena.get?_eq_of_slot? (h.slots b hb id hid)

theorem rangeLine {label : InsnId → String} {r : ExceptionRange InsnId} :
    m'.rangeLine label r = m.rangeLine label r := by
  delta Module.rangeLine
  rw [h.types]

theorem instructionLine (hb : m.body? j = some b) {id : InsnId} (hid : id ∈ b.code)
    {label : InsnId → String} {p : Nat} :
    m'.instructionLine label p id = m.instructionLine label p id := by
  have instruction := h.instruction? hb hid
  cases hi : m.instruction? id with
  | none =>
    rw [hi] at instruction
    simp only [Module.instructionLine, hi, instruction]
  | some i =>
    rw [hi] at instruction
    have text := (h.operands b hb id hid i hi).text label
    simp only [Module.instructionLine, hi, instruction, text]

theorem instructionLines (hb : m.body? j = some b) {label : InsnId → String} :
    (b.code.zipIdx.map fun (id, p) => m'.instructionLine label p id) =
      b.code.zipIdx.map fun (id, p) => m.instructionLine label p id :=
  List.map_congr_left fun _ hid => h.instructionLine hb (List.fst_mem_of_mem_zipIdx hid)

theorem bodyText (hb : m.body? j = some b) : m'.bodyText b = m.bodyText b := by
  have locals : m'.localsLine b = m.localsLine b := by
    rw [localsLine, localsLine, h.types]
  have lines : m'.rangeLine (handleText (.ofList b.code)) =
      m.rangeLine (handleText (.ofList b.code)) :=
    funext fun r => h.rangeLine
  delta Module.bodyText
  simp only [locals, lines, h.instructionLines hb]

theorem describe : m'.describe j = m.describe j := by
  rw [Module.describe, Module.describe, h.entry]
  cases hd : m.method? j with
  | none => rfl
  | some d =>
    have signature : m'.signatureLine j d = m.signatureLine j d := by
      rw [signatureLine, signatureLine, h.name, h.types]
    have hb : m.body? j = d.body := Module.body?_of_method? hd
    simp only [signature]
    cases body : d.body with
    | none => rfl
    | some b => simp only [h.bodyText (hb.trans body)]

/-! ## What verification says -/

theorem body : m'.body j = m.body j := by
  rw [Module.body, Module.body, h.body?, h.name]

theorem checkCode (hb : m.body? j = some b) : m'.checkCode j b = m.checkCode j b := by
  have step : ∀ placed ∈ b.code.zipIdx, ∀ seen,
      m'.checkInstruction j b b.locals.length seen placed =
        m.checkInstruction j b b.locals.length seen placed := by
    rintro ⟨id, p⟩ placed seen
    have hid : id ∈ b.code := List.fst_mem_of_mem_zipIdx placed
    have owner : m'.arena.owner? id = m.arena.owner? id :=
      Arena.owner?_eq_of_slot? (h.slots b hb id hid)
    have instruction := h.instruction? hb hid
    cases hi : m.instruction? id with
    | none =>
      rw [hi] at instruction
      simp only [checkInstruction, owner, h.name, hi, instruction]
    | some i =>
      rw [hi] at instruction
      have operands := (h.operands b hb id hid i hi).check b.locals.length
      simp only [checkInstruction, owner, h.name, hi, instruction, operands, checkTargets]
  rw [Module.checkCode, foldlM_congr step, Module.checkCode]

theorem checkRanges : m'.checkRanges j b = m.checkRanges j b := by
  simp only [Module.checkRanges, h.name]

theorem stackStep (hb : m.body? j = some b) {positions : Positions} {p depth : Nat}
    (hp : p < b.code.length) :
    m'.stackStep j b.code.toArray positions p depth =
      m.stackStep j b.code.toArray positions p depth := by
  have handle : b.code.toArray.getD p default = b.code[p] := by simp [Array.getD, hp]
  have instruction := h.instruction? hb (List.getElem_mem hp)
  unfold Module.stackStep
  simp only [handle, h.name]
  cases hi : m.instruction? b.code[p] with
  | none =>
    rw [hi] at instruction
    rw [instruction]
  | some i =>
    rw [hi] at instruction
    have effect := (h.operands b hb _ (List.getElem_mem hp) i hi).effect
    simp only [instruction, effect]

theorem simulate : m'.simulate j = m.simulate j := by
  have entries : ∀ positions b, m'.rangeEntries j positions b = m.rangeEntries j positions b := by
    intro positions b
    simp only [rangeEntries, h.name]
  unfold Module.simulate
  rw [h.body]
  cases hb : m.body? j with
  | none => simp only [Module.body, hb, bind, Except.bind]
  | some b =>
    have search : ∀ {clash depths deepest pending}, depths.size = b.code.length →
        Simulation.visit (m'.stackStep j b.code.toArray (.ofList b.code)) clash depths deepest
            pending =
          Simulation.visit (m.stackStep j b.code.toArray (.ofList b.code)) clash depths deepest
            pending := by
      intro clash depths deepest pending size
      exact Simulation.visit_congr fun p depth hp => h.stackStep hb (size ▸ hp)
    have size : (Array.replicate b.code.toArray.size (none : Option Nat)).size =
        b.code.length := by simp
    simp only [Module.body, hb, bind, Except.bind, entries, h.name, search size]

theorem verifyBody : m'.verifyBody j = m.verifyBody j := by
  unfold Module.verifyBody
  rw [h.body, h.simulate, h.name]
  cases hb : m.body? j with
  | none => simp only [Module.body, hb, bind, Except.bind]
  | some b => simp only [Module.body, hb, bind, Except.bind, h.checkCode hb, h.checkRanges]

end SameSight

/-! ## The method stays intact -/

/-- If what the method owns is left alone, all that is seen of it stays the same. -/
theorem SameSight.intact (h : SameSight j m m')
    (owned : ∀ id, m'.arena.owner? id = some j ↔ m.arena.owner? id = some j)
    (slots : ∀ id, m.arena.owner? id = some j → m'.arena.slot? id = m.arena.slot? id) :
    m.Intact j m' :=
  ⟨h.entry, owned, slots, h.describe, h.verifyBody⟩

theorem Intact.refl (j : MethodId) (m : Module) : m.Intact j m :=
  ⟨rfl, fun _ => Iff.rfl, fun _ _ => rfl, rfl, rfl⟩

theorem Intact.trans {m'' : Module} (h : m.Intact j m') (h' : m'.Intact j m'') :
    m.Intact j m'' where
  entry := h'.entry.trans h.entry
  owned id := (h'.owned id).trans (h.owned id)
  slots id hid := (h'.slots id ((h.owned id).mpr hid)).trans (h.slots id hid)
  listing := h'.listing.trans h.listing
  verdict := h'.verdict.trans h.verdict

/-- Declarations say all there is to say about operands. -/
theorem sameOperands_of_declarations (same : m'.declarations = m.declarations)
    (i : Instruction InsnId) : i.SameOperands j m m' := by
  have outline := Tables.outline_of_declarations same
  refine ⟨fun label => operandText_of_declarations same, ?_, fun locals => ?_⟩
  · exact Tables.stackEffect_of_outline outline
  · rw [← Tables.checkOperands_outline, outline, Tables.checkOperands_outline]

/-- An edit of one body leaves the other methods intact. -/
theorem Frame.intact (frame : m.Frame k m') (claimed : m.Claimed) (hj : j ≠ k) :
    m.Intact j m' := by
  have slots : ∀ id, m.arena.owner? id = some j → m'.arena.slot? id = m.arena.slot? id :=
    fun id => frame.arena.slot?_of_owner? hj
  have sight : SameSight j m m' := by
    constructor
    · exact frame.methods j.index (MethodId.index_inj.not.mpr hj)
    · exact Tables.methodName_of_outline (Tables.outline_of_declarations frame.declarations)
    · exact renderType_of_declarations frame.declarations
    · intro b hb id hid
      exact slots id ((claimed j b hb).owner? id hid)
    · intro b hb id hid i hi
      exact sameOperands_of_declarations frame.declarations i
  exact sight.intact (fun id => frame.arena.owner?_iff hj) slots

/-! ## One method more -/

/-- Names of types have nothing to do with methods. -/
theorem typeName_addMethod : (m.addMethod d).typeName = m.typeName := by
  have records : (m.addMethod d).records = m.records := Tables.records_enterMethod
  funext id
  exact Tables.typeName_congr records id

theorem renderType_addMethod : (m.addMethod d).renderType = m.renderType := by
  funext s
  rw [Tables.renderType, typeName_addMethod, Tables.renderType]

theorem fieldName_addMethod (id : FieldId) : (m.addMethod d).fieldName id = m.fieldName id := by
  rw [Tables.fieldName, typeName_addMethod, Tables.fieldName]
  rfl

theorem method?_addMethod_of_ne (h : j.index ≠ m.methods.size) :
    (m.addMethod d).method? j = m.method? j := by
  rw [method?_addMethod, if_neg h]

theorem methodName_addMethod (h : j.index ≠ m.methods.size) :
    (m.addMethod d).methodName j = m.methodName j := by
  rw [Tables.methodName, method?_addMethod_of_ne h, typeName_addMethod, Tables.methodName]

theorem givesValue_addMethod (h : j.index ≠ m.methods.size) :
    (m.addMethod d).givesValue j = m.givesValue j := by
  rw [Tables.givesValue, method?_addMethod_of_ne h, Tables.givesValue]

/-- What an instruction says does not change with a method that it does not mention. -/
theorem sameOperands_addMethod (hj : j.index ≠ m.methods.size) {i : Instruction InsnId}
    (apart : ∀ id, i.method? = some id → id.index ≠ m.methods.size) :
    i.SameOperands j m (m.addMethod d) := by
  have name : (m.addMethod d).methodName j = m.methodName j := methodName_addMethod hj
  have entry : (m.addMethod d).method? j = m.method? j := method?_addMethod_of_ne hj
  constructor
  · intro label
    cases i with
    | field access id => exact fieldName_addMethod id
    | call form id => exact methodName_addMethod (apart id rfl)
    | typed op s => exact congrFun renderType_addMethod s
    | _ => rfl
  · have calls : ∀ form id, i = .call form id →
        (m.addMethod d).callEffect form id = m.callEffect form id := by
      rintro form id rfl
      have callee := apart id rfl
      unfold Tables.callEffect
      rw [method?_addMethod_of_ne callee, givesValue_addMethod callee]
    exact Tables.stackEffect_congr calls (givesValue_addMethod hj)
  · intro locals
    have beyond : ∀ id, i.method? = some id →
        ((m.addMethod d).methods.size ≤ id.index ↔ m.methods.size ≤ id.index) := by
      intro id hid
      have := apart id hid
      rw [size_methods_addMethod]
      omega
    have types : (m.addMethod d).checkOperandType = m.checkOperandType := by
      have size : (m.addMethod d).types.size = m.types.size := Tables.size_types_enterMethod
      funext s
      rw [Tables.checkOperandType, Tables.missingType?, size, Tables.checkOperandType,
        Tables.missingType?]
    have fields : (m.addMethod d).fields = m.fields := rfl
    unfold Tables.checkOperands
    simp only [name, entry, types, fields]
    cases hi : i.method? with
    | none => rfl
    | some id => simp only [beyond id hi]

/-- A method that is added leaves the methods intact that do not mention it. -/
theorem intact_addMethod (apart : ∀ b, m.body? j = some b → ∀ id ∈ b.code, ∀ i,
    m.instruction? id = some i → ∀ callee, i.method? = some callee →
      callee.index ≠ m.methods.size) (hj : j.index ≠ m.methods.size) :
    m.Intact j (m.addMethod d) := by
  have sight : SameSight j m (m.addMethod d) := by
    constructor
    · exact method?_addMethod_of_ne hj
    · exact methodName_addMethod hj
    · exact renderType_addMethod
    · intro b hb id hid
      rfl
    · intro b hb id hid i hi
      exact sameOperands_addMethod hj (apart b hb id hid i hi)
  exact sight.intact (fun _ => Iff.rfl) fun _ _ => rfl

end Module

/-! ## Actions -/

/-- The method whose body the action edits. -/
def Action.target? : Action → Option MethodId
  | .insertAt k _ _ => some k
  | .append k _ => some k
  | .removeRange k _ _ => some k
  | .replaceAt k _ _ => some k
  | .assign k _ _ => some k
  | .assignAt k _ _ => some k
  | .splice k _ _ => some k
  | .copyRange k _ _ _ _ => some k
  | .pad k _ _ => some k
  | .addLocal k _ => some k
  | .declareMaxStack k _ => some k
  | .returnLiteral k _ => some k
  | .injectCall target _ => some target
  | .copyBody _ target => some target
  | _ => none

/-- An action on a body does nothing elsewhere. -/
theorem Action.contained_edit {a : Action} {kept : List Fragment} {k : MethodId}
    (h : a.target? = some k) : (a.edit kept).Contained k := by
  cases a with
  | insertAt => cases h; exact Edit.contained_insertAt.discard
  | append => cases h; exact Edit.contained_append.discard
  | removeRange => cases h; exact Edit.contained_removeRange.discard
  | replaceAt => cases h; exact Edit.contained_replaceAt.discard
  | assign => cases h; exact Edit.contained_assign
  | assignAt => cases h; exact Edit.contained_assignAt
  | splice k p number =>
    cases h
    rw [Action.edit]
    cases kept[number]? with
    | none => exact Edit.Meets.pure ()
    | some f => exact Edit.contained_splice.discard
  | copyRange => cases h; exact Edit.contained_copyRange.discard
  | pad => cases h; exact Edit.contained_pad.discard
  | addLocal => cases h; exact Edit.contained_addLocal.discard
  | declareMaxStack => cases h; exact Edit.contained_declareMaxStack
  | returnLiteral => cases h; exact Edit.contained_returnLiteral.discard
  | injectCall => cases h; exact Edit.contained_injectCall.discard
  | copyBody => cases h; exact Edit.contained_copyBody.discard
  | _ => cases h

/-- Whatever is done to the body of `k` in a linked module, and whether it succeeds or not, the
other methods stay intact, no slot disappears, and types and fields are what they were. A copy of a
signature leaves all methods intact, unless the body of one mentions a method that was not there; of
types and fields, nothing changes but that the type of the copy lists it. -/
theorem edits_keep_to_their_method {m : Module} (linked : m.Linked) :
    (∀ (kept : List Fragment) (a : Action) (j k : MethodId), a.target? = some k → j ≠ k →
      ((a.edit kept).apply m).2.arena.size ≤ Arena.capacity →
      m.Intact j ((a.edit kept).apply m).2 ∧
        m.arena.size ≤ ((a.edit kept).apply m).2.arena.size ∧
        ((a.edit kept).apply m).2.types = m.types ∧
        ((a.edit kept).apply m).2.fields = m.fields) ∧
    ∀ (owner : TypeId) (template : MethodId) (name : String) (m' : Module)
      (result : Except Fault MethodId),
      (Edit.cloneSignature owner template name).apply m = (result, m') →
      m'.methods.size ≤ Arena.capacity →
      (∀ j : MethodId, j.index < m.methods.size →
        (∀ b, m.body? j = some b → ∀ id ∈ b.code, ∀ i, m.instruction? id = some i →
          ∀ callee, i.method? = some callee → callee.index ≠ m.methods.size) →
        m.Intact j m') ∧
        m'.arena = m.arena ∧ m'.fields = m.fields ∧
        (m'.types = m.types ∨
          ∃ k, result = .ok k ∧ m'.types = (m.enlist owner (.withMethod k)).types) := by
  constructor
  · intro kept a j k target other room
    have contained : (a.edit kept).Contained k := Action.contained_edit target
    obtain ⟨-, frame⟩ := contained.keeps m linked.claimed room
    exact ⟨frame.intact linked.claimed other, frame.arena.size_le,
      Tables.types_eq_of_declarations frame.declarations,
      Tables.fields_eq_of_declarations frame.declarations⟩
  · intro owner template name m' result ran room
    cases result with
    | error fault =>
      obtain rfl := Edit.staged_cloneSignature.refuses.eq_of_error ran
      exact ⟨fun j _ _ => .refl j _, rfl, rfl, .inl rfl⟩
    | ok k =>
      have small := (Edit.size_lt_of_cloneSignature ran).trans_le room
      obtain ⟨d, -, -, rfl, rfl⟩ := (Edit.apply_cloneSignature_ok small).mp ran
      exact ⟨fun j hj apart => Module.intact_addMethod apart (Nat.ne_of_lt hj), rfl, rfl,
        .inr ⟨_, rfl, rfl⟩⟩

/-- An instance: an instruction is put in front of one of two methods, and then the signature of
this method is copied. -/
theorem edits_keep_to_their_method_sample :
    Sample.pair.build.Intact ⟨1⟩
      (((Action.insertAt ⟨0⟩ 0 .nop).edit []).apply Sample.pair.build).2 ∧
    ∃ m', (Edit.cloneSignature ⟨0⟩ ⟨0⟩ "again").apply Sample.pair.build = (.ok ⟨2⟩, m') ∧
      ∀ j : MethodId, j.index < 2 → Sample.pair.build.Intact j m' := by
  have check : Sample.pair.check = .ok () := by decide +kernel
  have numbered : Sample.pair.build.Numbered := by constructor <;> decide +kernel
  have room : Sample.pair.build.methods.size < Arena.capacity := by decide +kernel
  obtain ⟨edits, copies⟩ := edits_keep_to_their_method (Placement.linked_build check numbered)
  constructor
  · refine (edits [] (.insertAt ⟨0⟩ 0 .nop) ⟨1⟩ ⟨0⟩ rfl (by decide) ?_).1
    have placed := (Edit.apply_insertAt_ok (i := .nop)).mpr
      ⟨_, Sample.stub_start.body, Nat.zero_le _,
        ⟨.of_none rfl rfl rfl, .of_none rfl rfl, List.forall_mem_nil _⟩, rfl, rfl⟩
    rw [Action.edit, Edit.apply_discard, placed, Module.arena_rebuilt, Arena.size_append]
    decide +kernel
  · obtain ⟨d, copied⟩ : ∃ d, (Edit.cloneSignature ⟨0⟩ ⟨0⟩ "again").apply Sample.pair.build =
        (.ok ⟨2⟩, Sample.pair.build.addMethod d) :=
      ⟨_, (Edit.apply_cloneSignature_ok room).mpr ⟨_, rfl, by decide +kernel, rfl, rfl⟩⟩
    have size : (Sample.pair.build.addMethod d).methods.size ≤ Arena.capacity := by
      rw [Module.size_methods_addMethod]
      decide +kernel
    obtain ⟨intact, -⟩ := copies ⟨0⟩ ⟨0⟩ "again" _ _ copied size
    refine ⟨_, copied, fun j hj => intact j hj ?_⟩
    intro b hb id hid i hi callee hcallee
    have resolves := Placement.resolves_build check numbered.slots hb hid hi
    exact Nat.ne_of_lt (resolves.method callee hcallee)

end Graft
