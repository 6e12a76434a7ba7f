import Graft.Proofs.Lockstep
import Graft.Proofs.Strictness
import Graft.Proofs.Transactions

/-!
# Names that operations mention

The names that an operation mentions are read off its plan, without a module. An operation fails for
a missing name exactly if one of them is not found. This rests on the order of its steps: the
look-ups come first and fail in no other way, and what follows them never misses a name.
-/

namespace Graft

variable {α β γ : Type}

namespace Plan

/-- A name that a plan has for something of the module. -/
inductive Mention where
  | type (name : String)
  | method (r : MethodRef)
  | field (type name : String)
  deriving DecidableEq, Repr

/-- There is something of that name. -/
def Mention.Found (t : Tables Members β) : Mention → Prop
  | .type name => ∃ id, t.findType name = some id
  | .method r => ∃ owner k, t.findType r.type = some owner ∧ t.findMethod owner r.name = some k
  | .field outer name => ∃ owner f, t.findType outer = some owner ∧ t.findField owner name = some f

/-- The names that a value mentions. -/
def valueMentions : Literal String → List Mention
  | .fresh type => [.type type]
  | _ => []

/-- The names that an instruction mentions. -/
def PlanInstruction.mentions : PlanInstruction → List Mention
  | plain _ => []
  | call _ callee => [.method callee]
  | construct type => [.type type]
  | field _ type name => [.field type name]

/-- The names that an operation mentions. The name that a copy is to have is none of them. -/
def Operation.mentions : Operation → List Mention
  | setReturn target value => .method target :: valueMentions value
  | makePublic target => [.method target]
  | injectCall target callee => [.method target, .method callee]
  | removeRange target _ _ => [.method target]
  | pad target _ _ => [.method target]
  | cloneMethod template _ => [.method template]
  | insert target _ i => .method target :: i.mentions
  | replace target _ i => .method target :: i.mentions
  | copyRange target source _ _ _ => [.method target, .method source]

end Plan

open Plan

/-! ## Look-ups -/

/-- The computation fails for a missing name exactly if one of the names is not found. -/
def Misses (t : Tables Members β) (names : List Mention) (x : Except Fault α) : Prop :=
  (∃ symbol, x = .error (.symbolNotFound symbol)) ↔ ∃ name ∈ names, ¬ name.Found t

/-- Missing names are the only faults of the computation. -/
def Soft (x : Except Fault α) : Prop := ∀ fault, x = .error fault → fault.isSoft = true

section Lookups

variable {t : Tables Members β} {names names' : List Mention}

theorem Strict.misses {x : Except Fault α} (h : Strict x) : Misses t [] x := by
  constructor
  · rintro ⟨symbol, failed⟩
    cases h _ failed
  · rintro ⟨_, ⟨⟩, -⟩

theorem misses_of_ok {a : α} (found : ∀ name ∈ names, name.Found t) :
    Misses t names (.ok a : Except Fault α) :=
  ⟨nofun, fun ⟨name, mentioned, missing⟩ => absurd (found name mentioned) missing⟩

theorem misses_of_missing {name : Mention} {symbol : String} (mentioned : name ∈ names)
    (missing : ¬ name.Found t) :
    Misses t names (.error (.symbolNotFound symbol) : Except Fault α) :=
  ⟨fun _ => ⟨name, mentioned, missing⟩, fun _ => ⟨symbol, rfl⟩⟩

/-- If a computation succeeds, its names are found. -/
theorem Misses.found {x : Except Fault α} (hx : Misses t names x) {a : α} (h : x = .ok a) :
    ∀ name ∈ names, name.Found t := by
  intro name mentioned
  by_contra missing
  obtain ⟨symbol, failed⟩ := hx.mpr ⟨name, mentioned, missing⟩
  rw [h] at failed
  cases failed

/-- Nothing behind the last look-up misses a name. -/
theorem Misses.bind_strict {x : Except Fault α} {f : α → Except Fault γ} (hx : Misses t names x)
    (hf : ∀ a, Strict (f a)) : Misses t names (x >>= f) := by
  cases x with
  | error fault =>
    have same : (∃ symbol, (.error fault : Except Fault γ) = .error (.symbolNotFound symbol)) ↔
        ∃ symbol, (.error fault : Except Fault α) = .error (.symbolNotFound symbol) := by
      simp only [Except.error.injEq]
    exact same.trans hx
  | ok a =>
    have found := hx.found rfl
    constructor
    · rintro ⟨symbol, failed⟩
      cases hf a _ failed
    · rintro ⟨name, mentioned, missing⟩
      exact absurd (found name mentioned) missing

/-- One look-up after another. A fault of the first keeps the second from being made, which goes
unnoticed because that fault is a missing name, too. -/
theorem Misses.bind {x : Except Fault α} {f : α → Except Fault γ} (hx : Misses t names x)
    (soft : Soft x) (hf : ∀ a, Misses t names' (f a)) : Misses t (names ++ names') (x >>= f) := by
  cases x with
  | error fault =>
    obtain ⟨symbol, rfl⟩ := Fault.exists_of_isSoft (soft fault rfl)
    obtain ⟨name, mentioned, missing⟩ := hx.mp ⟨symbol, rfl⟩
    exact misses_of_missing (List.mem_append_left _ mentioned) missing
  | ok a =>
    have found := hx.found rfl
    refine (hf a).trans ⟨fun ⟨name, mentioned, missing⟩ => ?_, fun ⟨name, mentioned, missing⟩ => ?_⟩
    · exact ⟨name, List.mem_append_right _ mentioned, missing⟩
    · rcases List.mem_append.mp mentioned with here | later
      · exact absurd (found name here) missing
      · exact ⟨name, later, missing⟩

theorem misses_requireType (name : String) : Misses t [.type name] (t.requireType name) := by
  unfold Tables.requireType
  cases h : t.findType name with
  | some id => exact misses_of_ok (by simp [Mention.Found, h])
  | none => exact misses_of_missing (List.mem_singleton_self _) (by simp [Mention.Found, h])

theorem soft_requireType (name : String) : Soft (t.requireType name) := by
  unfold Tables.requireType
  cases t.findType name <;> rintro _ ⟨⟩
  rfl

theorem soft_requireMethod (owner : TypeId) (name : String) :
    Soft (t.requireMethod owner name) := by
  unfold Tables.requireMethod
  cases t.findMethod owner name <;> rintro _ ⟨⟩
  rfl

theorem soft_resolve (r : MethodRef) : Soft (r.resolve t) := by
  rw [MethodRef.resolve]
  intro fault failed
  cases h : t.requireType r.type with
  | error fault' =>
    rw [h] at failed
    obtain rfl : fault' = fault := Except.error.inj failed
    exact soft_requireType r.type fault' h
  | ok owner =>
    rw [h] at failed
    exact soft_requireMethod owner r.name fault failed

/-- A look-up of a member starts with its type. -/
theorem misses_member {type : String} {name : Mention} {f : TypeId → Except Fault α}
    (declared : name.Found t → ∃ owner, t.findType type = some owner)
    (hf : ∀ owner, t.findType type = some owner → Misses t [name] (f owner)) :
    Misses t [name] (t.requireType type >>= f) := by
  unfold Tables.requireType
  cases found : t.findType type with
  | none =>
    refine misses_of_missing (List.mem_singleton_self name) fun there => ?_
    obtain ⟨owner, type⟩ := declared there
    rw [found] at type
    cases type
  | some owner => exact hf owner found

theorem misses_requireMethod {r : MethodRef} {owner : TypeId}
    (type : t.findType r.type = some owner) :
    Misses t [.method r] (t.requireMethod owner r.name) := by
  unfold Tables.requireMethod
  cases method : t.findMethod owner r.name with
  | some k => exact misses_of_ok (by simp [Mention.Found, type, method])
  | none =>
    exact misses_of_missing (List.mem_singleton_self _) (by simp [Mention.Found, type, method])

theorem misses_requireField {type name : String} {owner : TypeId}
    (found : t.findType type = some owner) :
    Misses t [.field type name] (t.requireField owner name) := by
  unfold Tables.requireField
  cases field : t.findField owner name with
  | some f => exact misses_of_ok (by simp [Mention.Found, found, field])
  | none =>
    exact misses_of_missing (List.mem_singleton_self _) (by simp [Mention.Found, found, field])

theorem declared_of_found_method {r : MethodRef} (h : (Mention.method r).Found t) :
    ∃ owner, t.findType r.type = some owner :=
  let ⟨owner, _, type, _⟩ := h
  ⟨owner, type⟩

theorem misses_resolve (r : MethodRef) : Misses t [.method r] (r.resolve t) :=
  misses_member declared_of_found_method fun _ type => misses_requireMethod type

theorem misses_value (value : Literal String) :
    Misses t (valueMentions value) (value.resolve t) := by
  cases value with
  | fresh name => exact (misses_requireType name).bind_strict fun _ => .ok _
  | _ => exact Strict.misses (.ok _)

theorem misses_instruction (i : PlanInstruction) :
    Misses t i.mentions (i.resolve t) := by
  cases i with
  | plain i => exact Strict.misses (.ok _)
  | call isVirtual callee => exact (misses_resolve callee).bind_strict fun _ => .ok _
  | construct type =>
    exact (misses_requireType type).bind_strict fun owner =>
      .bind (Tables.strict_requireConstructor owner) fun _ => .ok _
  | field access type name =>
    exact misses_member (fun ⟨owner, _, found, _⟩ => ⟨owner, found⟩) fun owner found =>
      (misses_requireField found).bind_strict fun _ => .ok _

end Lookups

/-! ## Operations -/

namespace Edit

variable {m : Module} {names : List Mention}

theorem apply_ask_bind_fst (f : Tables Members LiveBody → Except Fault α) (g : α → Edit β)
    (m : Module) : ((ask f >>= g).apply m).1 = f m.toTables >>= fun a => ((g a).apply m).1 := by
  rw [ask, apply_check_bind]
  cases f m.toTables <;> rfl

/-- The look-up of the target is followed by others. -/
theorem misses_target {r : MethodRef} {g : MethodId → Edit β}
    (hg : ∀ k, Misses m.toTables names ((g k).apply m).1) :
    Misses m.toTables (.method r :: names) ((ask r.resolve >>= g).apply m).1 := by
  rw [apply_ask_bind_fst]
  exact (misses_resolve r).bind (soft_resolve r) hg

/-- The last look-up. -/
theorem misses_ask {f : Tables Members LiveBody → Except Fault α} {g : α → Edit β}
    (hf : Misses m.toTables names (f m.toTables)) (hg : ∀ a, (g a).Strict) :
    Misses m.toTables names ((ask f >>= g).apply m).1 := by
  rw [apply_ask_bind_fst]
  exact hf.bind_strict fun a => (hg a).strict_fst m

theorem misses_operation (o : Operation) :
    Misses m.toTables o.mentions ((operation o).apply m).1 := by
  cases o with
  | setReturn target value =>
    exact misses_target fun k =>
      misses_ask (f := fun t => value.resolve t) (misses_value value) fun _ =>
        built_returnLiteral.strict.discard
  | makePublic target =>
    exact misses_ask (misses_resolve target) fun k => changes_makePublic.staged.strict
  | injectCall target callee =>
    exact misses_target fun k =>
      misses_ask (f := callee.resolve) (misses_resolve callee) fun _ =>
        built_injectCall.strict.discard
  | removeRange target first last =>
    exact misses_ask (misses_resolve target) fun k => staged_removeRange.strict.discard
  | pad target position count =>
    exact misses_ask (misses_resolve target) fun k => staged_pad.strict.discard
  | cloneMethod template name =>
    -- the template is looked up in two steps, since its type is asked for as well
    rw [operation, apply_ask_bind_fst]
    refine misses_member declared_of_found_method fun owner type => ?_
    rw [apply_ask_bind_fst]
    exact (misses_requireMethod type).bind_strict fun k => built_cloneMethod.strict.strict_fst m
  | insert target position i =>
    exact misses_target fun k =>
      misses_ask (f := fun t => i.resolve t) (misses_instruction i) fun _ =>
        staged_insertAt.strict.discard
  | replace target position i =>
    exact misses_target fun k =>
      misses_ask (f := fun t => i.resolve t) (misses_instruction i) fun _ =>
        staged_replaceAt.strict.discard
  | copyRange target source first last position =>
    exact misses_target fun k =>
      misses_ask (f := source.resolve) (misses_resolve source) fun _ =>
        staged_copyRange.strict.discard

end Edit

/-- An operation is skipped exactly for a name that is not found, and then it has done nothing. -/
theorem skipped_iff_not_found (o : Operation) (m : Module) :
    ((∃ symbol, ((Edit.operation o).apply m).1 = .error (.symbolNotFound symbol)) ↔
      ∃ name ∈ o.mentions, ¬ name.Found m.toTables) ∧
    ∀ symbol m', (Edit.operation o).apply m = (.error (.symbolNotFound symbol), m') → m' = m :=
  ⟨Edit.misses_operation o, fun _ _ failed =>
    (Edit.looksUpFirst_operation o m).failed _ _ failed rfl⟩

/-- An instance: an operation on a method that is not there. -/
theorem skipped_iff_not_found_sample :
    (∃ name ∈ Sample.missing.mentions, ¬ name.Found Sample.draft.clearTouched.toTables) ∧
      ((Edit.operation Sample.missing).apply Sample.draft.clearTouched).2 =
        Sample.draft.clearTouched := by
  obtain ⟨skipped, unchanged⟩ := skipped_iff_not_found Sample.missing Sample.draft.clearTouched
  have failed := congrArg Prod.fst Sample.apply_missing
  exact ⟨skipped.mp ⟨_, failed⟩, unchanged _ _ (Prod.ext failed rfl)⟩

end Graft
