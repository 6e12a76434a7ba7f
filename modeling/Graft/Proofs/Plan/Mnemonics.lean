import Graft.Proofs.Labels
import Graft.Proofs.Plan.Words
import Graft.Proofs.Sample
import Mathlib.Tactic.FinCases

/-!
# Instructions of a plan say what they are

An instruction of a plan is found by its first word, in one place by comparing words and in another
by comparing with the mnemonics of instructions. Either way the word is the mnemonic of what is
read, and of what that means in a module. What is read whole is an instruction that neither jumps
nor belongs in a handler and mentions nothing, so a plan line has no way to move control.
-/

namespace Graft

/-! ## The first word -/

namespace Text

variable {cs word rest : List Char}

/-- What is trimmed behind is blank. -/
theorem exists_trimEnd (cs : List Char) :
    ∃ gap, (∀ c ∈ gap, isBlank c = true) ∧ trimEnd cs ++ gap = cs := by
  refine ⟨(cs.reverse.takeWhile isBlank).reverse, ?_, ?_⟩
  · intro c hc
    exact List.mem_takeWhile_imp (List.mem_reverse.mp hc)
  · rw [trimEnd, trimStart, ← List.reverse_append, List.takeWhile_append_dropWhile,
      List.reverse_reverse]

theorem trimStart_trim (cs : List Char) : trimStart (trim cs) = trim cs := by
  obtain ⟨gap, -, whole⟩ := exists_trimEnd (trimStart cs)
  rw [trim]
  cases trimmed : trimEnd (trimStart cs) with
  | nil => rfl
  | cons c rest =>
    rw [trimmed, List.cons_append] at whole
    have solid := isBlank_of_trimStart_eq_cons whole.symm
    rw [trimStart, List.dropWhile_cons_of_neg (by simp [solid])]

/-- Trimming spares the first word. -/
theorem takeWhile_trim (cs : List Char) :
    (trim cs).takeWhile (! isBlank ·) = (trimStart cs).takeWhile (! isBlank ·) := by
  obtain ⟨gap, blank, whole⟩ := exists_trimEnd (trimStart cs)
  have none : gap.takeWhile (! isBlank ·) = [] := by
    cases gap with
    | nil => rfl
    | cons c gap => exact List.takeWhile_cons_of_neg (by simp [blank c List.mem_cons_self])
  conv_rhs => rw [← whole, List.takeWhile_append, none, List.append_nil]
  split
  · rename_i all
    exact (List.takeWhile_prefix _).eq_of_length all
  · rfl

theorem eq_of_nextWord? (h : nextWord? cs = some (word, rest)) :
    (trimStart cs).takeWhile (! isBlank ·) = word := by
  rw [nextWord?] at h
  split at h
  · cases h
  · rename_i found
    rw [found]
    exact congrArg Prod.fst (Option.some.inj h)

end Text

/-! ## What is read behind it -/

/-- The instruction is none that jumps, where leaving a protected region is a jump, none that ends a
handler, and mentions no entry of a table. -/
structure Instruction.SelfContained {L : Type} (i : Instruction L) : Prop where
  isBranch : i.isBranch = false
  ne_rethrow : i ≠ .rethrow
  ne_endfinally : i ≠ .endfinally
  field? : i.field? = none
  method? : i.method? = none
  type? : i.type? = none

namespace Plan

/-- The instruction has the mnemonic, and is self-contained if it is written whole. -/
structure PlanInstruction.Honours (i : PlanInstruction) (mnemonic : String) : Prop where
  mnemonic : i.mnemonic = mnemonic
  plain : ∀ j, i = .plain j → j.SelfContained

theorem PlanInstruction.Honours.of_plain {i : Instruction InsnId} (h : i.SelfContained) :
    (PlanInstruction.plain i).Honours i.mnemonic where
  mnemonic := rfl
  plain j same := by
    cases same
    exact h

theorem selfContained_of_mem_bareInstructions {i : Instruction InsnId}
    (h : i ∈ bareInstructions) : i.SelfContained := by
  fin_cases h <;> exact ⟨rfl, nofun, nofun, rfl, rfl, rfl⟩

namespace Reader

variable {α γ : Type} {r : Reader α} {f : α → Reader γ} {P : γ → Prop}

/-- Whatever line is read, the result meets the condition. -/
def Gives (r : Reader γ) (P : γ → Prop) : Prop := ∀ line a rest, r line = .ok (a, rest) → P a

theorem nextWord?_of_word {what name : String} {line rest : List Char}
    (h : word what line = .ok (name, rest)) : Text.nextWord? line = some (name.toList, rest) := by
  change Except.bind (chars what line) (fun p => .ok (String.ofList p.1, p.2)) = _ at h
  rw [chars] at h
  cases found : Text.nextWord? line with
  | none => rw [found] at h; cases h
  | some p =>
    rw [found] at h
    cases h
    rw [String.toList_ofList]

theorem gives_pure {c : γ} (h : P c) : Gives (pure c) P := by
  intro line a rest read
  cases read
  exact h

theorem gives_bind (h : ∀ a, Gives (f a) P) : Gives (r >>= f) P := by
  intro line c rest read
  obtain ⟨a, left, -, read⟩ := bind_run_eq_ok.mp read
  exact h a left c rest read

theorem gives_map {g : α → γ} (h : ∀ a, P (g a)) : Gives (do return g (← r)) P :=
  gives_bind fun a => gives_pure (h a)

theorem gives_throw (flaw : Flaw) : Gives (throw flaw : Reader γ) P := by
  intro line a rest read
  cases read

/-! ### Operands -/

theorem gives_argument (access : SlotAccess) :
    Gives (argument access) (·.Honours access.argMnemonic) :=
  gives_map fun _ => .of_plain ⟨rfl, nofun, nofun, rfl, rfl, rfl⟩

theorem gives_localSlot (access : SlotAccess) :
    Gives (localSlot access) (·.Honours access.locMnemonic) :=
  gives_map fun _ => .of_plain ⟨rfl, nofun, nofun, rfl, rfl, rfl⟩

theorem gives_callOf (isVirtual : Bool) :
    Gives (callOf isVirtual) (·.Honours (callForm isVirtual).mnemonic) :=
  gives_map fun _ => ⟨rfl, nofun⟩

theorem gives_fieldOf (access : FieldAccess) :
    Gives (fieldOf access) (·.Honours access.mnemonic) :=
  gives_bind fun _ => gives_map fun _ => ⟨rfl, nofun⟩

/-- The reader that a word selects reads an instruction with this word as its mnemonic. -/
theorem gives_operands (mnemonic : String) :
    Gives (operands mnemonic) (·.Honours mnemonic) := by
  unfold operands
  split
  case h_20 =>
    -- Words without operands are compared with the mnemonics of the bare instructions.
    split
    · rename_i i found
      have same : i.mnemonic = mnemonic := by simpa using List.find?_some found
      have known := selfContained_of_mem_bareInstructions (List.mem_of_find?_eq_some found)
      exact gives_pure (same ▸ .of_plain known)
    · exact gives_throw _
  -- For the others there is one case per word, told apart by the reader of the operands.
  all_goals first
    | exact gives_argument _
    | exact gives_localSlot _
    | exact gives_callOf _
    | exact gives_fieldOf _
    | exact gives_map fun _ => .of_plain ⟨rfl, nofun, nofun, rfl, rfl, rfl⟩
    | exact gives_map fun _ => ⟨rfl, nofun⟩

end Reader

/-! ## No way to name other instructions -/

/-- If the instruction is written whole, it does not refer to others. -/
def PlanInstruction.Unlabelled (i : PlanInstruction) : Prop := ∀ j, i = .plain j → j.targets = []

/-- The operation does not put in an instruction that refers to others. -/
def Operation.Unlabelled : Operation → Prop
  | .insert _ _ i => i.Unlabelled
  | .replace _ _ i => i.Unlabelled
  | _ => True

theorem PlanInstruction.Honours.unlabelled {i : PlanInstruction} {mnemonic : String}
    (h : i.Honours mnemonic) : i.Unlabelled :=
  fun j whole => Instruction.targets_eq_nil_of_not_isBranch (h.plain j whole).isBranch

namespace Reader

theorem gives_instruction : Gives instruction PlanInstruction.Unlabelled :=
  gives_bind fun mnemonic line i rest read =>
    (gives_operands mnemonic line i rest read).unlabelled

theorem gives_map_instruction {γ : Type} {P : γ → Prop} {g : PlanInstruction → γ}
    (h : ∀ i : PlanInstruction, i.Unlabelled → P (g i)) :
    Gives (do return g (← instruction)) P := by
  intro line c rest read
  obtain ⟨i, left, found, read⟩ := bind_run_eq_ok.mp read
  exact gives_pure (h i (gives_instruction line i left found)) left c rest read

/-- Only two keywords have an instruction behind them. -/
theorem gives_fields (keyword : String) : Gives (fields keyword) Operation.Unlabelled := by
  unfold fields
  split
  case h_1 => exact gives_bind fun _ => gives_map fun _ => trivial
  case h_2 => exact gives_map fun _ => trivial
  case h_3 => exact gives_bind fun _ => gives_map fun _ => trivial
  case h_4 => exact gives_bind fun _ => gives_bind fun _ => gives_map fun _ => trivial
  case h_5 => exact gives_bind fun _ => gives_bind fun _ => gives_map fun _ => trivial
  case h_6 => exact gives_bind fun _ => gives_map fun _ => trivial
  case h_7 => exact gives_bind fun _ => gives_bind fun _ => gives_map_instruction fun _ => id
  case h_8 => exact gives_bind fun _ => gives_bind fun _ => gives_map_instruction fun _ => id
  case h_9 =>
    refine gives_bind fun _ => gives_bind fun _ => gives_bind fun _ => gives_bind fun _ => ?_
    exact gives_map fun _ => trivial
  case h_10 => exact gives_throw _

end Reader

theorem unlabelled_of_readOperation {line : List Char} {o : Operation}
    (h : readOperation line = .ok o) : o.Unlabelled := by
  obtain ⟨⟨o', rest⟩, read, h⟩ := bind_eq_ok.mp h
  obtain ⟨keyword, left, -, read⟩ := bind_run_eq_ok.mp read
  have unlabelled := Reader.gives_fields keyword left o' rest read
  dsimp only at h
  split_ifs at h with more
  · cases h
  · cases h
    exact unlabelled

theorem unlabelled_of_readLines {lines : List (List Char)} {n : Nat} {os : List Operation}
    (h : readLines n lines = .ok os) : ∀ o ∈ os, o.Unlabelled := by
  induction lines generalizing n os with
  | nil =>
    cases h
    exact List.forall_mem_nil _
  | cons line rest ih =>
    rw [readLines] at h
    split at h
    · exact ih h
    · split at h
      · cases h
      · rename_i o first
        obtain ⟨later, read, rfl⟩ := map_eq_ok.mp h
        exact List.forall_mem_cons.mpr ⟨unlabelled_of_readOperation first, ih read⟩

/-- Whatever a plan says, the instructions that it puts in do not refer to others. -/
theorem unlabelled_of_read {text : String} {os : List Operation} (h : read text = .ok os) :
    ∀ o ∈ os, o.Unlabelled :=
  unlabelled_of_readLines h

/-! ## What is meant by it -/

/-- Looking up the names in an instruction changes neither its mnemonic nor where control goes. -/
theorem PlanInstruction.Honours.resolve {β : Type} {t : Tables Members β} {i : PlanInstruction}
    {mnemonic : String} {j : Instruction InsnId} (h : i.Honours mnemonic)
    (found : i.resolve t = .ok j) : j.mnemonic = mnemonic ∧ j.isBranch = false := by
  rw [← h.mnemonic]
  cases i with
  | plain i =>
    cases found
    exact ⟨rfl, (h.plain j rfl).isBranch⟩
  | call =>
    obtain ⟨k, -, found⟩ := bind_eq_ok.mp found
    cases found
    exact ⟨rfl, rfl⟩
  | construct =>
    obtain ⟨owner, -, found⟩ := bind_eq_ok.mp found
    obtain ⟨k, -, found⟩ := bind_eq_ok.mp found
    cases found
    exact ⟨rfl, rfl⟩
  | field =>
    obtain ⟨owner, -, found⟩ := bind_eq_ok.mp found
    obtain ⟨id, -, found⟩ := bind_eq_ok.mp found
    cases found
    exact ⟨rfl, rfl⟩

/-- The word that selects the operands is the first of the text. -/
theorem operands_of_readInstruction {text : List Char} {i : PlanInstruction}
    (h : readInstruction text = .ok i) :
    ∃ mnemonic line rest, (Text.trimStart text).takeWhile (! Text.isBlank ·) = mnemonic.toList ∧
      Reader.operands mnemonic line = .ok (i, rest) := by
  obtain ⟨⟨i', rest⟩, read, h⟩ := bind_eq_ok.mp h
  obtain ⟨mnemonic, line, first, read⟩ := bind_run_eq_ok.mp read
  have same : i' = i := by
    dsimp only at h
    split_ifs at h with left
    · cases h
    · cases h
      rfl
  have word := Text.eq_of_nextWord? (Reader.nextWord?_of_word first)
  rw [Text.trimStart_trim, Text.takeWhile_trim] at word
  exact ⟨mnemonic, line, rest, word, same ▸ read⟩

/-- The first word of what is read as an instruction is its mnemonic. An instruction that is written
whole neither jumps, leaves a region or ends a handler nor mentions a field, a method or a type.
And what the instruction means in a module has the same mnemonic, and is no branch either. -/
theorem mnemonic_of_readInstruction {text : List Char} {i : PlanInstruction}
    (h : readInstruction text = .ok i) :
    (text.dropWhile Text.isBlank).takeWhile (! Text.isBlank ·) = i.mnemonic.toList ∧
    (∀ j, i = .plain j → j.SelfContained) ∧
    ∀ {β : Type} (t : Tables Members β) (j : Instruction InsnId), i.resolve t = .ok j →
      j.mnemonic = i.mnemonic ∧ j.isBranch = false ∧ j.targets = [] := by
  obtain ⟨mnemonic, line, rest, word, read⟩ := operands_of_readInstruction h
  have honours : i.Honours mnemonic := Reader.gives_operands mnemonic line i rest read
  rw [← honours.mnemonic] at word honours
  refine ⟨word, honours.plain, fun t j found => ?_⟩
  obtain ⟨same, straight⟩ := honours.resolve found
  exact ⟨same, straight, Instruction.targets_eq_nil_of_not_isBranch straight⟩

/-- Instances: a number that is pushed, and a call that is looked up in the sample. -/
theorem mnemonic_of_readInstruction_sample :
    (readInstruction "\tldc.i4  7 ".toList = .ok (.plain (.ldcI4 7)) ∧
      ("\tldc.i4  7 ".toList.dropWhile Text.isBlank).takeWhile (! Text.isBlank ·) =
        "ldc.i4".toList ∧
      (Instruction.ldcI4 7 : Instruction InsnId).SelfContained) ∧
    (readInstruction "call Counter next".toList = .ok (.call false ⟨"Counter", "next"⟩) ∧
      ∃ j, PlanInstruction.resolve Sample.file.build.toTables
          (.call false ⟨"Counter", "next"⟩) = .ok j ∧
        j.mnemonic = "call" ∧ j.isBranch = false ∧ j.targets = []) := by
  have number : readInstruction "\tldc.i4  7 ".toList = .ok (.plain (.ldcI4 7)) := by
    decide +kernel
  have call : readInstruction "call Counter next".toList =
      .ok (.call false ⟨"Counter", "next"⟩) := by
    decide +kernel
  have found : PlanInstruction.resolve Sample.file.build.toTables
      (.call false ⟨"Counter", "next"⟩) = .ok (.call .direct ⟨0⟩) := by
    decide +kernel
  obtain ⟨word, plain, -⟩ := mnemonic_of_readInstruction number
  obtain ⟨-, -, meant⟩ := mnemonic_of_readInstruction call
  exact ⟨⟨number, word, plain _ rfl⟩, call, _, found, meant _ _ found⟩

end Plan

end Graft
