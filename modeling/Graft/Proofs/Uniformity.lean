import Graft.Proofs.Blindness
import Graft.Proofs.Operations
import Graft.Proofs.Plan.Mnemonics

/-!
# Operations do the same to twins

Whatever a plan asks for is looked up by name, put in without handles, and refused for reasons that
can be told from the file. So each operation agrees with itself on twins. An operation that is put
together from edits inherits this from its parts.
-/

namespace Graft

variable {μ β : Type}

/-! ## What is put in -/

theorem Fragment.known_straight {t : Tables μ β} {code : List (Instruction Empty)} :
    (Fragment.straight code).Known t := List.forall_mem_nil _

/-- A literal is pushed without a jump. -/
theorem Literal.targets_of_push {t : Tables Members β} {value : Literal TypeId}
    {i : Instruction InsnId} (h : value.push t = .ok i) : i.targets = [] := by
  cases value with
  | fresh id =>
    obtain ⟨k, -, h⟩ := bind_eq_ok.mp h
    cases h
    rfl
  | _ =>
    cases h
    rfl

/-- A name does not stand for a jump. -/
theorem Plan.PlanInstruction.targets_of_resolve {t : Tables Members β} {i : PlanInstruction}
    {j : Instruction InsnId} (unlabelled : i.Unlabelled) (h : i.resolve t = .ok j) :
    j.targets = [] := by
  cases i with
  | plain i =>
    cases h
    exact unlabelled j rfl
  | call =>
    obtain ⟨k, -, h⟩ := bind_eq_ok.mp h
    cases h
    rfl
  | construct =>
    obtain ⟨owner, -, h⟩ := bind_eq_ok.mp h
    obtain ⟨k, -, h⟩ := bind_eq_ok.mp h
    cases h
    rfl
  | field =>
    obtain ⟨owner, -, h⟩ := bind_eq_ok.mp h
    obtain ⟨id, -, h⟩ := bind_eq_ok.mp h
    cases h
    rfl

namespace Module

variable {m m' : Module} {k source target callee : MethodId} {b b' : LiveBody} {f : Fragment}
  {p count first last : Nat} {s : TypeSig}

/-- A fragment that is lifted out of a body handles exceptions that the body does. -/
theorem Storable.known_of_extract (h : m.Storable) (lifted : m.extract k first last = .ok f) :
    f.Known m.toTables := by
  obtain ⟨b, ranges, hb, -, -, lifts, same⟩ := extract_eq_ok.mp lifted
  intro s hs type caught
  rw [same] at hs
  obtain ⟨_, hs, rfl⟩ := List.mem_filterMap.mp hs
  obtain ⟨⟨r, i⟩, hr, lift⟩ := exists_of_mem_mapM lifts hs
  have origin : s.caught? = r.caught? := by
    simp only [liftRange?] at lift
    split at lift
    · cases lift
    · obtain ⟨s', lift, ⟨⟩⟩ := map_eq_ok.mp lift
      exact ExceptionRange.caught?_of_mapLabelsM lift
  refine (h.known hb).caught (r.mapLabels b.position) ?_ type ?_
  · exact List.mem_map_of_mem (List.fst_mem_of_mem_zipIdx hr)
  · rw [ExceptionRange.caught?_mapLabels, ← origin, caught]

/-! ## Answers about twins -/

namespace Twin

variable (h : Twin m m')
include h

theorem accord_extract : Accord (m.extract k first last) (m'.extract k first last) := by
  refine .of_strict strict_extract strict_extract fun f => ?_
  rcases h.body_cases (k := k) with ⟨none, none'⟩ | ⟨b, b', alike⟩
  · simp [extract_eq_ok, none, none']
  · exact alike.extract

theorem accord_wholeBody : Accord (m.wholeBody k) (m'.wholeBody k) := by
  refine .of_strict strict_wholeBody strict_wholeBody fun (f, rest) => ?_
  rw [Edit.wholeBody_eq_ok, Edit.wholeBody_eq_ok]
  rcases h.body_cases (k := k) with ⟨none, none'⟩ | ⟨b, b', alike⟩
  · simp [none, none']
  · have filled : b'.code ≠ [] ↔ b.code ≠ [] := by
      rw [← List.length_pos_iff, alike.length, List.length_pos_iff]
    have empty : ({ b' with code := [], ranges := [] } : LiveBody) =
        { b with code := [], ranges := [] } := by
      rw [Body.mk.injEq]
      exact ⟨alike.maxStack, alike.initLocals, alike.locals, rfl, rfl⟩
    simp only [alike.body, alike.body', Option.some.injEq, exists_eq_left', alike.length,
      alike.extract, filled, empty]

theorem checkSameShape_eq :
    m'.checkSameShape source target = m.checkSameShape source target := by
  rw [checkSameShape, checkSameShape, h.methodName, h.methodName]
  rcases h.method_cases (k := source) with ⟨none, none'⟩ | ⟨d, d', hd, hd', view⟩
  · rw [none, none']
  · rcases h.method_cases (k := target) with ⟨none, none'⟩ | ⟨e, e', he, he', view'⟩
    · rw [none, none', hd, hd']
    · have head := Method.head_of_view view
      have head' := Method.head_of_view view'
      simp only [hd, hd', he, he', Method.isStatic_of_head head, Method.isStatic_of_head head',
        Method.signature_of_head head, Method.signature_of_head head']

end Twin

/-- How deep the stack gets before padding is put in. -/
theorem checkPadding_eq_ok : m.checkPadding k b p count = .ok () ↔
    count ≤ maxDepth - (m.simulate k).toOption.elim b.maxStack.toNat (max · b.maxStack.toNat) := by
  unfold checkPadding
  cases m.simulate k <;> simp [Except.toOption]

end Module

namespace Edit

open Graft.Module

variable {m m' : Module} {k source target callee template : MethodId} {b b' : LiveBody}
  {owner : TypeId} {name : String} {p count first last : Nat} {s : TypeSig} {d d' : Method LiveBody}

/-! ## Bodies -/

/-- Bodies that look alike are still alike with the locals of another body. -/
theorem twin_withLocals (h : Twin m m') (alike : Alike k m m' b b') {c : LiveBody}
    (furnished : c.Furnished m.toTables) :
    Twin (m.withBody k { b with locals := c.locals, initLocals := c.initLocals } m.arena)
      (m'.withBody k { b' with locals := c.locals, initLocals := c.initLocals } m'.arena) := by
  have furnished' : c.Furnished m'.toTables := furnished.mono h.size_types.ge
  refine h.withBody (h.storable.withLocals alike.body rfl rfl (furnished.of_locals_eq rfl))
    (h.storable'.withLocals alike.body' rfl rfl (furnished'.of_locals_eq rfl)) ?_ h.slots
  exact congrArg (fun v : FileBody =>
    { v with locals := c.locals.map LocalSlot.type, initLocals := c.initLocals }) alike.view

theorem agree_addLocal (h : Twin m m') : Agree m m' (addLocal k s) (addLocal k s) := by
  refine .of_strict staged_addLocal.strict staged_addLocal.strict (fun slot m₁ ok _ => ?_)
    fun slot m₁' ok' => ?_
  · obtain ⟨b, hb, known, left, rfl, rfl⟩ := apply_addLocal_ok.mp ok
    obtain ⟨b', hb', alike⟩ := h.exists_alike hb
    refine ⟨_, apply_addLocal_ok.mpr ⟨b', hb', h.knows.mpr known, alike.locals ▸ left, ?_, rfl⟩, ?_⟩
    · rw [alike.locals]
    · have furnished := (h.storable.furnished hb).withLocal known left
      have twins := twin_withLocals (h.touch (k := k)) (h.touch.alike hb hb') furnished
      have same : b'.withLocal s = { b' with
          locals := (b.withLocal s).locals, initLocals := (b.withLocal s).initLocals } := by
        rw [LiveBody.withLocal, alike.locals]
        rfl
      rw [same]
      exact twins
  · obtain ⟨b', hb', known, left, rfl, rfl⟩ := apply_addLocal_ok.mp ok'
    obtain ⟨b, hb, alike⟩ := h.exists_alike' hb'
    exact ⟨_, _, apply_addLocal_ok.mpr ⟨b, hb, h.knows.mp known, alike.locals ▸ left, rfl, rfl⟩⟩

theorem agree_resetBody (h : Twin m m') {fresh : LiveBody} (code : fresh.code = [])
    (ranges : fresh.ranges = []) (furnished : fresh.Furnished m.toTables) :
    Agree m m' (resetBody k fresh) (resetBody k fresh) := by
  refine .of_strict staged_resetBody.strict staged_resetBody.strict (fun _ m₁ ok _ => ?_)
    fun _ m₁' ok' => ?_
  · obtain ⟨b, hb, rfl⟩ := apply_resetBody_ok.mp ok
    obtain ⟨b', hb', -⟩ := h.exists_alike hb
    refine ⟨_, apply_resetBody_ok.mpr ⟨b', hb', rfl⟩, h.touch.withBody
      (h.storable.reset hb code ranges furnished).touch
      (h.storable'.reset hb' code ranges (furnished.mono h.size_types.ge)).touch ?_ ?_⟩
    · exact LiveBody.view_congr (by simp [code])
    · rw [Arena.size_releaseAll, Arena.size_releaseAll]
      exact h.slots
  · obtain ⟨b', hb', rfl⟩ := apply_resetBody_ok.mp ok'
    obtain ⟨b, hb, -⟩ := h.exists_alike' hb'
    exact ⟨(), _, apply_resetBody_ok.mpr ⟨b, hb, rfl⟩⟩

theorem agree_copyRange (h : Twin m m') : Agree m m' (discard (copyRange k source first last p))
    (discard (copyRange k source first last p)) := by
  simp only [copyRange, discard_bind, discard_then]
  refine .start_bind h fun _ _ _ => .check_bind h.touch.accord_extract fun f lifted => ?_
  exact agree_bodyEdit (e := .splice p f) h.touch BodyEdit.blind_splice
    (by rintro _ ⟨⟩; exact h.storable.touch.known_of_extract lifted)

theorem agree_pad (h : Twin m m') :
    Agree m m' (discard (pad k p count)) (discard (pad k p count)) := by
  simp only [pad, discard_bind]
  refine .start_bind h fun b b' alike => ?_
  have position : Accord ((m.touch k).checkPosition k b p) ((m'.touch k).checkPosition k b' p) :=
    .of_strict strict_checkPosition strict_checkPosition fun _ => by
      rw [checkPosition_eq_ok, checkPosition_eq_ok, alike.length]
  have padding : Accord ((m.touch k).checkPadding k b p count)
      ((m'.touch k).checkPadding k b' p count) :=
    .of_strict strict_checkPadding strict_checkPadding fun _ => by
      rw [checkPadding_eq_ok, checkPadding_eq_ok, alike.simulate, alike.maxStack]
  refine .check_bind position fun _ _ => .check_bind padding fun _ _ => ?_
  exact agree_bodyEdit (e := .splice p (.padding count)) h.touch BodyEdit.blind_splice
    (by rintro _ ⟨⟩; exact Fragment.known_straight)

/-! ## Whole methods -/

theorem agree_returnLiteral (h : Twin m m') {value : Literal TypeId} :
    Agree m m' (discard (returnLiteral k value)) (discard (returnLiteral k value)) := by
  simp only [returnLiteral, discard_bind]
  refine .body_bind h (.check_bind (.of_eq (checkReturns_of_outline h.outline)) fun _ _ => ?_)
  refine .check_bind (.of_eq (value.push_of_outline h.outline)) fun push pushed => ?_
  refine .bind (agree_resetBody h rfl rfl (.of_nil rfl)) (fun _ => staged_append.grows.discard) ?_
  intro _ m₁ m₁' _ h
  refine agree_bodyEdit (e := .append [push, .ret]) h ?_ nofun
  simpa [BodyEdit.Blind, BodyEdit.instructions] using ⟨Literal.targets_of_push pushed, rfl⟩

theorem agree_copyBody (h : Twin m m') :
    Agree m m' (discard (copyBody source target)) (discard (copyBody source target)) := by
  simp only [copyBody, discard_bind]
  refine .check_bind (.of_eq h.checkSameShape_eq) fun _ _ => .body_bind h ?_
  refine .check_bind h.accord_wholeBody fun (f, rest) whole => ?_
  obtain ⟨b, hb, -, lifted, rfl⟩ := wholeBody_eq_ok.mp whole
  have furnished := h.storable.furnished hb
  refine .bind (agree_resetBody h rfl rfl (furnished.of_locals_eq rfl))
    (fun _ => staged_splice.grows.discard) fun _ m₁ m₁' reset h₁ => ?_
  -- the fragment comes from the module before its body was thrown away
  obtain ⟨c, hc, rfl⟩ := apply_resetBody_ok.mp reset
  refine agree_bodyEdit (e := .splice 0 f) h₁ BodyEdit.blind_splice ?_
  rintro _ ⟨⟩
  exact h.storable.known_of_extract lifted

theorem agree_placeCall (h : Twin m m') {call : List (Instruction Empty)} :
    Agree m m' (discard (placeCall target callee call))
      (discard (placeCall target callee call)) := by
  simp only [placeCall, discard_bind]
  refine .get_bind ?_
  rw [Tables.givesValue_of_outline h.outline]
  exact agree_bodyEdit (e := .splice 0 (.straight _)) h BodyEdit.blind_splice
    (by rintro _ ⟨⟩; exact Fragment.known_straight)

theorem agree_injectCall (h : Twin m m') :
    Agree m m' (discard (injectCall target callee)) (discard (injectCall target callee)) := by
  simp only [injectCall_eq, discard_bind]
  refine .body_bind h (.check_bind (.of_eq (checkInjectable_of_outline h.outline)) fun _ _ => ?_)
  refine .check_bind (.of_eq (receiver?_of_outline h.outline)) fun receiver _ => ?_
  cases receiver with
  | none => exact agree_placeCall h
  | some receiver =>
    simp only [discard_bind]
    refine .bind (agree_addLocal h) ?_ fun slot m₁ m₁' _ h => agree_placeCall h
    exact fun _ => staged_placeCall.grows.discard

/-! ## Copies of methods -/

theorem agree_addMethod (h : Twin m m') {flags : MethodFlags} {signature : MethodSig}
    (member : owner.index < m.types.size) (result : m.Knows signature.result)
    (params : ∀ p ∈ signature.params, m.Knows p.type) :
    Agree m m' (addMethod owner name flags signature) (addMethod owner name flags signature) := by
  have gets : getsBody m' owner flags = getsBody m owner flags := by
    rw [getsBody, getsBody, isExternal, isExternal, Tables.type?, Tables.type?,
      Tables.types_eq_of_declarations h.declarations]
  have next : m'.nextMethod = m.nextMethod := by rw [nextMethod, nextMethod, h.size_methods]
  intro _
  rw [apply_addMethod, apply_addMethod]
  cases valid : Tables.requireName name with
  | error fault =>
    refine ⟨.same _, fun a ok => ?_⟩
    cases ok
  | ok _ =>
    rw [gets, next]
    refine ⟨.same _, fun _ _ => h.addMethod ⟨member, result, params, valid⟩ fun b hb => ?_⟩
    simp only [Option.ite_none_right_eq_some, Option.some.injEq] at hb
    exact hb.2.symm

/-- The bodies that locals are copied from have the same locals. -/
theorem agree_copyLocals (h : Twin m m')
    (same : (d.body = none ∧ d'.body = none) ∨ ∃ b b', d.body = some b ∧ d'.body = some b' ∧
      b'.locals = b.locals ∧ b'.initLocals = b.initLocals ∧ b.Furnished m.toTables) :
    Agree m m' (copyLocals d k) (copyLocals d' k) := by
  intro _
  rw [apply_copyLocals, apply_copyLocals]
  refine ⟨.same _, fun _ _ => ?_⟩
  rw [localsCopied, localsCopied]
  obtain ⟨none, none'⟩ | ⟨b, b', hb, hb', locals, initLocals, furnished⟩ := same
  · rw [none, none']
    exact h
  · rw [hb, hb']
    rcases h.body_cases (k := k) with ⟨none, none'⟩ | ⟨new, new', alike⟩
    · rw [none, none']
      exact h
    · rw [alike.body, alike.body']
      show Twin _ (m'.setBody k { new' with locals := b'.locals, initLocals := b'.initLocals })
      rw [locals, initLocals]
      exact twin_withLocals h alike furnished

theorem agree_cloneSignature (h : Twin m m') (inside : owner.index < m.types.size) :
    Agree m m' (cloneSignature owner template name) (cloneSignature owner template name) := by
  rw [cloneSignature_eq]
  refine .get_bind ?_
  rcases h.method_cases (k := template) with ⟨none, none'⟩ | ⟨d, d', hd, hd', view⟩
  · rw [none, none']
    exact .check h (.of_eq (by rw [h.methodName]))
  · rw [hd, hd']
    have flags := Method.flags_of_head (Method.head_of_view view)
    have signature := Method.signature_of_head (Method.head_of_view view)
    have head := (h.storable.accepts hd).1
    show Agree m m' (addMethod owner name d.flags d.signature >>= copyLocals d)
      (addMethod owner name d'.flags d'.signature >>= copyLocals d')
    rw [flags, signature]
    refine .bind (agree_addMethod h inside head.result head.params)
      (fun _ => changes_copyLocals.grows) ?_
    intro k m₁ m₁' added h₁
    refine agree_copyLocals h₁ ?_
    rcases h.body_cases (k := template) with ⟨none, none'⟩ | ⟨b, b', alike⟩
    · rw [body?_of_method? hd] at none
      rw [body?_of_method? hd'] at none'
      exact .inl ⟨none, none'⟩
    · have furnished := h.storable.furnished alike.body
      have body := alike.body
      have body' := alike.body'
      rw [body?_of_method? hd] at body
      rw [body?_of_method? hd'] at body'
      -- the types of the locals were known before the copy was declared
      have types : m₁.types.size = m.types.size := by
        rw [apply_addMethod] at added
        split at added <;> cases added
        exact Tables.size_types_enterMethod
      exact .inr ⟨b, b', body, body', alike.locals, alike.initLocals, furnished.mono types.ge⟩

theorem agree_cloneMethod (h : Twin m m') (inside : owner.index < m.types.size) :
    Agree m m' (cloneMethod owner template name) (cloneMethod owner template name) := by
  refine .bind (agree_cloneSignature h inside) (fun k => .get_bind fun m => ?_)
    fun k m₁ m₁' _ h => .get_bind ?_
  · split
    · exact contained_copyBody.grows.discard
    · exact Meets.pure ()
  · rw [h.isSome_body?]
    split
    · exact agree_copyBody h
    · exact .pure h ()

/-! ## Operations -/

theorem agree_makePublic (h : Twin m m') : Agree m m' (makePublic k) (makePublic k) :=
  .update fun _ => h.setFlags

open Plan

/-- A name means the same to twins. -/
theorem ask_resolve_bind {α : Type} (h : Twin m m') {r : MethodRef} {g g' : MethodId → Edit α}
    (hg : ∀ k, Agree m m' (g k) (g' k)) :
    Agree m m' (ask (fun t => r.resolve t) >>= g) (ask (fun t => r.resolve t) >>= g') :=
  .check_bind (.of_eq (r.resolve_of_outline h.outline)) fun k _ => hg k

/-- And so does an instruction without labels. -/
theorem ask_instruction_bind {α : Type} (h : Twin m m') {i : PlanInstruction}
    (unlabelled : i.Unlabelled) {g g' : Instruction InsnId → Edit α}
    (hg : ∀ i : Instruction InsnId, i.targets = [] → Agree m m' (g i) (g' i)) :
    Agree m m' (ask (fun t => i.resolve t) >>= g) (ask (fun t => i.resolve t) >>= g') :=
  .check_bind (.of_eq (i.resolve_of_outline h.outline)) fun j resolved =>
    hg j (PlanInstruction.targets_of_resolve unlabelled resolved)

/-- Whatever an operation does, it does to twins alike. -/
theorem agree_operation (h : Twin m m') {o : Operation} (unlabelled : o.Unlabelled) :
    Agree m m' (operation o) (operation o) := by
  cases o with
  | setReturn target value =>
    exact ask_resolve_bind h fun k =>
      .check_bind (.of_eq (value.resolve_of_outline h.outline)) fun value _ =>
        agree_returnLiteral h
  | makePublic target => exact ask_resolve_bind h fun k => agree_makePublic h
  | injectCall target callee =>
    exact ask_resolve_bind h fun k => ask_resolve_bind h fun callee => agree_injectCall h
  | removeRange target first last =>
    exact ask_resolve_bind h fun k =>
      agree_bodyEdit (e := .removeRange first last) h BodyEdit.blind_removeRange nofun
  | pad target position count => exact ask_resolve_bind h fun k => agree_pad h
  | cloneMethod template name =>
    have types : m'.requireType template.type = m.requireType template.type := by
      rw [← Tables.requireType_outline, h.outline, Tables.requireType_outline]
    refine .check_bind (.of_eq types) fun owner _ => .check_bind ?_ fun k found =>
      agree_cloneMethod h (Tables.index_lt_of_requireMethod found)
    exact .of_eq (Tables.requireMethod_of_outline h.outline template.name)
  | insert target position i =>
    exact ask_resolve_bind h fun k => ask_instruction_bind h unlabelled fun i blind =>
      agree_bodyEdit (e := .insertAt position i) h (BodyEdit.blind_insertAt blind) nofun
  | replace target position i =>
    exact ask_resolve_bind h fun k => ask_instruction_bind h unlabelled fun i blind =>
      agree_bodyEdit (e := .replaceAt position i) h (BodyEdit.blind_replaceAt blind) nofun
  | copyRange target source first last position =>
    exact ask_resolve_bind h fun k => ask_resolve_bind h fun source => agree_copyRange h

end Edit

end Graft
