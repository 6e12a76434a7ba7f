import Graft.Number.Shortest
import Graft.Proofs.Plan.Words
import Mathlib.Tactic.FinCases

/-!
# Plan lines read back what they spell

How operations are written as lines of a plan: the keyword, and then the fields in a fixed order,
with names as they are and numbers in decimal. An operation can be spelled if its names are words,
its numbers are not too large, and its texts do not lose blanks at their ends. A line that spells it
is read as this operation and no other, and if the last field is a word, nothing may follow it.
-/

namespace Graft

open Text Number

/-! ## Mnemonics -/

theorem FieldAccess.isWord_mnemonic (access : FieldAccess) : IsWord access.mnemonic.toList := by
  cases access <;> decide

theorem CallForm.isWord_mnemonic (form : CallForm) : IsWord form.mnemonic.toList := by
  cases form <;> decide

theorem Instruction.isWord_mnemonic {L : Type} (i : Instruction L) :
    IsWord i.mnemonic.toList := by
  cases i with
  | arg access => rw [mnemonic]; cases access <;> decide
  | loc access => rw [mnemonic]; cases access <;> decide
  | arith op => rw [mnemonic]; cases op <;> decide
  | compare op => rw [mnemonic]; cases op <;> decide
  | conv target => rw [mnemonic]; cases target <;> decide
  | field access => exact access.isWord_mnemonic
  | call form => exact form.isWord_mnemonic
  | typed op => rw [mnemonic]; cases op <;> decide
  | brIf condition => cases condition <;> (rw [mnemonic]; decide)
  | brCmp comparison => rw [mnemonic]; cases comparison <;> decide
  | _ => rw [mnemonic]; decide

theorem Plan.PlanInstruction.isWord_mnemonic (i : PlanInstruction) : IsWord i.mnemonic.toList := by
  cases i with
  | plain i => exact i.isWord_mnemonic
  | call isVirtual => exact (callForm isVirtual).isWord_mnemonic
  | construct => exact CallForm.construct.isWord_mnemonic
  | field access => exact access.isWord_mnemonic

/-! ## Literals -/

namespace Literal

/-- The kind of a literal, which stands before the colon. -/
def kind : Literal String → String
  | str _ => "str"
  | int _ => "int"
  | bool _ => "bool"
  | float _ => "float"
  | double _ => "double"
  | fresh _ => "new"

/-- What stands behind the colon. -/
def payload : Literal String → List Char
  | str text => text.toList
  | int value => signedDecimal value.toInt
  | bool value => (toString value).toList
  | float bits => (renderSingle bits).toList
  | double bits => (renderDouble bits).toList
  | fresh type => type.toList

/-- A literal as the last field of a line. -/
def spelling (value : Literal String) : List Char := value.kind.toList ++ ':' :: value.payload

/-- Numbers with a point are left out. A text may have any blanks but at its end. -/
def Spellable : Literal String → Prop
  | str text => ∀ c ∈ text.toList.getLast?, isBlank c = false
  | int _ => True
  | bool _ => True
  | float _ => False
  | double _ => False
  | fresh type => IsWord type.toList

end Literal

namespace Plan

/-! ## Instructions and operations -/

/-- The fields of a reference to a method. -/
def MethodRef.spelling (r : MethodRef) : List (List Char) := [r.type.toList, r.name.toList]

/-- Both names are words. -/
structure MethodRef.Spellable (r : MethodRef) : Prop where
  type : IsWord r.type.toList
  name : IsWord r.name.toList

namespace PlanInstruction

/-- The operands of an instruction. -/
def operands : PlanInstruction → List (List Char)
  | plain (.ldstr text) => [text.toList]
  | plain (.ldcI4 value) => [signedDecimal value.toInt]
  | plain (.ldcI8 value) => [signedDecimal value.toInt]
  | plain (.ldcR4 bits) => [(renderSingle bits).toList]
  | plain (.ldcR8 bits) => [(renderDouble bits).toList]
  | plain (.arg _ index) => [decimal index.toNat]
  | plain (.loc _ index) => [decimal index.toNat]
  | plain _ => []
  | call _ callee => callee.spelling
  | construct type => [type.toList]
  | field _ type name => [type.toList, name.toList]

/-- The fields of an instruction: its mnemonic and its operands. -/
def spelling (i : PlanInstruction) : List (List Char) := i.mnemonic.toList :: i.operands

/-- Numbers with a point are left out, and so is what can only stand in bodies. A text is there, and
has no blanks at its ends. -/
def Spellable : PlanInstruction → Prop
  | plain (.ldstr text) => IsField text.toList
  | plain (.ldcI4 _) => True
  | plain (.ldcI8 _) => True
  | plain (.arg _ _) => True
  | plain (.loc _ _) => True
  | plain (.ldcR4 _) => False
  | plain (.ldcR8 _) => False
  | plain i => i ∈ bareInstructions
  | call _ callee => callee.Spellable
  | construct type => IsWord type.toList
  | field _ type name => IsWord type.toList ∧ IsWord name.toList

/-- Is the last operand free text? -/
def endsInText : PlanInstruction → Bool
  | plain (.ldstr _) => true
  | _ => false

end PlanInstruction

namespace Operation

/-- The keyword that a line for the operation starts with. -/
def keyword : Operation → String
  | setReturn _ _ => "set-return"
  | makePublic _ => "make-public"
  | injectCall _ _ => "inject-call"
  | removeRange _ _ _ => "remove-range"
  | pad _ _ _ => "pad"
  | cloneMethod _ _ => "clone-method"
  | insert _ _ _ => "insert"
  | replace _ _ _ => "replace"
  | copyRange _ _ _ _ _ => "copy-range"

/-- The operands of an operation. -/
def operands : Operation → List (List Char)
  | setReturn target value => target.spelling ++ [value.spelling]
  | makePublic target => target.spelling
  | injectCall target callee => target.spelling ++ callee.spelling
  | removeRange target first last => target.spelling ++ ([decimal first] ++ [decimal last])
  | pad target position count => target.spelling ++ ([decimal position] ++ [decimal count])
  | cloneMethod template name => template.spelling ++ [name.toList]
  | insert target position i => target.spelling ++ ([decimal position] ++ i.spelling)
  | replace target position i => target.spelling ++ ([decimal position] ++ i.spelling)
  | copyRange target source first last position =>
    target.spelling ++ (source.spelling
      ++ ([decimal first] ++ ([decimal last] ++ [decimal position])))

/-- The fields of an operation: its keyword and its operands. -/
def spelling (o : Operation) : List (List Char) := o.keyword.toList :: o.operands

/-- All that the operation is spelled with can be spelled. -/
def Spellable : Operation → Prop
  | setReturn target value => target.Spellable ∧ value.Spellable
  | makePublic target => target.Spellable
  | injectCall target callee => target.Spellable ∧ callee.Spellable
  | removeRange target first last =>
    target.Spellable ∧ first ≤ Reader.maxNatural ∧ last ≤ Reader.maxNatural
  | pad target position count =>
    target.Spellable ∧ position ≤ Reader.maxNatural ∧ count ≤ Reader.maxNatural
  | cloneMethod template name => template.Spellable ∧ IsWord name.toList
  | insert target position i => target.Spellable ∧ position ≤ Reader.maxNatural ∧ i.Spellable
  | replace target position i => target.Spellable ∧ position ≤ Reader.maxNatural ∧ i.Spellable
  | copyRange target source first last position =>
    target.Spellable ∧ source.Spellable ∧ first ≤ Reader.maxNatural ∧
      last ≤ Reader.maxNatural ∧ position ≤ Reader.maxNatural

/-- Is the last field free text? -/
def endsInText : Operation → Bool
  | setReturn _ value => isText value
  | insert _ _ i => i.endsInText
  | replace _ _ i => i.endsInText
  | _ => false

end Operation

end Plan

/-! ## Reading literals -/

namespace Literal

variable {value : Literal String}

theorem isWord_kind : IsWord value.kind.toList := by
  cases value <;> (rw [kind]; decide)

theorem colon_notMem_kind : ':' ∉ value.kind.toList := by
  cases value <;> (rw [kind]; decide)

theorem kind_ne_str (closed : Plan.isText value = false) : value.kind ≠ "str" := by
  cases value with
  | str text => cases closed
  | _ => rw [kind]; decide

theorem readPayload_payload (h : value.Spellable) :
    Plan.readPayload value.kind value.payload = .ok value := by
  cases value with
  | str text =>
    show Except.ok (Literal.str (String.ofList text.toList)) = _
    rw [String.ofList_toList]
  | int value =>
    have read : (readInt32? (signedDecimal value.toInt)).map Literal.int =
        some (Literal.int value : Literal String) := by
      rw [readInt32?_signedDecimal, Option.map_some]
    simp only [Plan.readPayload, kind, payload, read]
  | bool value => cases value <;> rfl
  | float bits => exact h.elim
  | double bits => exact h.elim
  | fresh type =>
    have word : IsWord type.toList := h
    have named : type.toList ≠ [] ∧ (! type.toList.any isBlank) = true :=
      ⟨word.filled, by rw [word.any_isBlank]; rfl⟩
    simp only [Plan.readPayload, kind, payload, if_pos named, String.ofList_toList]

/-- The payload of a literal that is no text has no blanks. -/
theorem isBlank_of_mem_payload {c : Char} (h : value.Spellable) (closed : Plan.isText value = false)
    (hc : c ∈ value.payload) : isBlank c = false := by
  cases value with
  | str text => cases closed
  | int value => exact (isWord_signedDecimal _).solid c hc
  | bool value =>
    have word : IsWord (payload (.bool value)) := by
      cases value <;> (rw [payload]; decide)
    exact word.solid c hc
  | float bits => exact h.elim
  | double bits => exact h.elim
  | fresh type => exact h.solid c hc

theorem isWord_spelling (h : value.Spellable) (closed : Plan.isText value = false) :
    IsWord value.spelling where
  filled := List.append_ne_nil_of_right_ne_nil _ (List.cons_ne_nil _ _)
  solid := by
    intro c hc
    rcases List.mem_append.mp hc with hc | hc
    · exact isWord_kind.solid c hc
    · rcases List.mem_cons.mp hc with rfl | hc
      · decide
      · exact isBlank_of_mem_payload h closed hc

/-- No literal ends in a blank. -/
theorem isBlank_of_getLast?_payload {c : Char} (h : value.Spellable)
    (hc : c ∈ value.payload.getLast?) : isBlank c = false := by
  cases value with
  | str text => exact h c hc
  | float bits => exact h.elim
  | double bits => exact h.elim
  | _ => exact isBlank_of_mem_payload h rfl (List.mem_of_mem_getLast? hc)

theorem isField_spelling (h : value.Spellable) : IsField value.spelling where
  front := by
    have word : IsWord value.kind.toList := isWord_kind
    obtain ⟨c, rest, same, solid⟩ := word.isField.front
    exact ⟨c, rest ++ ':' :: value.payload, by rw [spelling, same, List.cons_append], solid⟩
  back := by
    rcases List.eq_nil_or_concat value.payload with none | ⟨rest, c, same⟩
    · exact ⟨value.kind.toList, ':', by rw [spelling, none], by decide⟩
    · rw [List.concat_eq_append] at same
      refine ⟨value.kind.toList ++ ':' :: rest, c, ?_, isBlank_of_getLast?_payload h ?_⟩
      · rw [spelling, same, List.append_assoc, List.cons_append]
      · rw [same, List.getLast?_concat]
        rfl

end Literal

namespace Plan

variable {value : Literal String} {kind : String} {line payload : List Char}

theorem readLiteral_append (h : ':' ∉ kind.toList) :
    readLiteral (kind.toList ++ ':' :: payload) = readPayload kind payload := by
  have solid : ∀ c ∈ kind.toList, decide (c ≠ ':') = true := by
    intro c hc
    have : c ≠ ':' := by
      rintro rfl
      exact h hc
    simpa using this
  rw [readLiteral, List.dropWhile_append_of_pos solid, List.takeWhile_append_of_pos solid,
    List.dropWhile_cons_of_neg (by decide), List.takeWhile_cons_of_neg (by decide),
    List.append_nil, String.ofList_toList]

theorem eq_some_of_ok {value? : Option (Literal String)} {flaw : Flaw}
    (h : (match value? with
      | some value => Except.ok value
      | none => .error flaw) = .ok value) : value? = some value := by
  cases value? with
  | none => cases h
  | some found => exact congrArg some (Except.ok.inj h)

/-- Only the kind of texts makes a text. -/
theorem isText_of_readPayload (h : readPayload kind payload = .ok value) (hk : kind ≠ "str") :
    isText value = false := by
  unfold readPayload at h
  split at h
  -- one case for each kind, in the order of the definition
  case h_1 => exact absurd rfl hk
  case h_3 =>
    have found := eq_some_of_ok h
    split at found
    · cases found
      rfl
    · cases found
      rfl
    · cases found
  case h_6 =>
    have found := eq_some_of_ok h
    split_ifs at found
    cases found
    rfl
  case h_7 => cases h
  all_goals
    obtain ⟨_, -, rfl⟩ := Option.map_eq_some_iff.mp (eq_some_of_ok h)
    rfl

/-- What the literal at the end of a line is read as. -/
theorem literal_eq (filled : line ≠ []) : Reader.literal line =
    (readLiteral line).bind fun value =>
      if ! isText value && line.any isBlank then
        .error (.blankInLiteral (String.ofList line))
      else .ok (value, []) := by
  have taken : Reader.remainder line = .ok (line, []) := rfl
  rw [Reader.literal, Reader.bind_eq taken, if_neg filled]
  cases read : readLiteral line with
  | error flaw => rfl
  | ok value =>
    show (if (! isText value && line.any isBlank) = true then
        (throw (Flaw.blankInLiteral (String.ofList line)) : Reader PUnit) >>= fun _ => pure value
      else (pure value : Reader _)) [] = if _ then _ else _
    split
    · rfl
    · rfl

/-- A word more belongs to the payload, with the blank in front of it; only texts can have that. -/
theorem ends_literal (h : value.Spellable) :
    Reader.Ends Reader.literal [value.spelling] (isText value) value where
  solid := by simpa using Literal.isField_spelling h
  whole := by
    intro line spaced
    have read : readLiteral value.spelling = .ok value :=
      (readLiteral_append Literal.colon_notMem_kind).trans (Literal.readPayload_payload h)
    rw [Spaced.single_iff.mp spaced, literal_eq (Literal.isField_spelling h).ne_nil, read]
    cases closed : isText value with
    | true => simp [Except.bind, closed]
    | false => simp [Except.bind, (Literal.isWord_spelling h closed).any_isBlank]
  closed := by
    intro closed word line hw spaced
    cases spaced with
    | @cons _ gap _ later _ hgap single =>
      have blank : (value.spelling ++ gap ++ later).any isBlank = true := by
        obtain ⟨c, hc⟩ := List.exists_mem_of_ne_nil gap hgap.filled
        exact List.any_eq_true.mpr ⟨c, by simp [hc], hgap.blank c hc⟩
      have read : readLiteral (value.spelling ++ gap ++ later) =
          readPayload value.kind (value.payload ++ gap ++ later) := by
        rw [← readLiteral_append Literal.colon_notMem_kind]
        simp [Literal.spelling]
      rw [literal_eq (by simp [hgap.filled]), read]
      cases out : readPayload value.kind (value.payload ++ gap ++ later) with
      | error flaw => exact .inl ⟨flaw, rfl⟩
      | ok value' =>
        have plain : isText value' = false := isText_of_readPayload out (Literal.kind_ne_str closed)
        refine .inl ⟨.blankInLiteral (String.ofList (value.spelling ++ gap ++ later)), ?_⟩
        simp only [Except.bind, plain, blank]
        rfl

/-! ## Reading instructions -/

namespace Reader

variable {r : MethodRef} {i : PlanInstruction} {what what' : String}

theorem reads_method (h : r.Spellable) : Reads (method what what') r.spelling r :=
  (reads_word h.type).bind (reads_word h.name).map

theorem operands_argument {access : SlotAccess} {index : UInt16} :
    operands (PlanInstruction.plain (.arg access index)).mnemonic = argument access := by
  cases access <;> rfl

theorem operands_localSlot {access : SlotAccess} {index : UInt16} :
    operands (PlanInstruction.plain (.loc access index)).mnemonic = localSlot access := by
  cases access <;> rfl

theorem operands_field {access : FieldAccess} {type name : String} :
    operands (PlanInstruction.field access type name).mnemonic = fieldOf access := by
  cases access <;> rfl

theorem operands_call {isVirtual : Bool} {callee : MethodRef} :
    operands (PlanInstruction.call isVirtual callee).mnemonic = callOf isVirtual := by
  cases isVirtual <;> rfl

theorem operands_bare {i : Instruction InsnId} (h : i ∈ bareInstructions) :
    operands i.mnemonic = pure (.plain i) := by
  fin_cases h <;> rfl

theorem ends_stringText {text : String} (h : IsField text.toList) :
    Ends stringText [text.toList] true text where
  solid := by simpa using h
  whole := by
    intro line spaced
    rw [Spaced.single_iff.mp spaced]
    have taken : remainder text.toList = .ok (text.toList, []) := rfl
    rw [stringText, bind_eq taken, if_neg h.ne_nil, String.ofList_toList]
    rfl
  closed := nofun

theorem ends_operands (h : i.Spellable) :
    Ends (operands i.mnemonic) i.operands i.endsInText i := by
  cases i with
  | plain i =>
    cases i with
    | ldstr text => exact (ends_stringText h).map
    | ldcI4 value =>
      exact (reads_operand (isWord_signedDecimal _) (readInt32?_signedDecimal value)).map.ends
    | ldcR4 bits => exact h.elim
    | ldcR8 bits => exact h.elim
    | ldcI8 value =>
      exact (reads_operand (isWord_signedDecimal _) (readInt64?_signedDecimal value)).map.ends
    | arg access index =>
      rw [operands_argument]
      exact (reads_operand isWord_decimal (readUInt16?_decimal index)).map.ends
    | loc access index =>
      rw [operands_localSlot]
      exact (reads_operand isWord_decimal (readUInt16?_decimal index)).map.ends
    | _ =>
      rw [PlanInstruction.mnemonic, operands_bare h]
      exact (Reads.pure _).ends
  | call isVirtual callee =>
    rw [operands_call]
    exact (reads_method h).map.ends
  | construct type => exact (reads_word h).map.ends
  | field access type name =>
    rw [operands_field]
    exact ((reads_word h.1).bind (reads_word h.2).map).ends

theorem ends_instruction (h : i.Spellable) : Ends instruction i.spelling i.endsInText i :=
  (reads_word i.isWord_mnemonic).bind_ends (ends_operands h)

/-! ## Reading operations -/

variable {o : Operation}

theorem isWord_keyword : IsWord o.keyword.toList := by
  cases o <;> (rw [Operation.keyword]; decide)

/-- The operands are taken one after the other; only the last of them can be free text. -/
theorem ends_fields (h : o.Spellable) :
    Ends (fields o.keyword) o.operands o.endsInText o := by
  cases o with
  | setReturn target value =>
    exact (reads_method h.1).bind_ends (ends_literal h.2).map
  | makePublic target => exact (reads_method h).map.ends
  | injectCall target callee =>
    exact ((reads_method h.1).bind (reads_method h.2).map).ends
  | removeRange target first last =>
    exact ((reads_method h.1).bind ((reads_natural h.2.1).bind
      (reads_natural h.2.2).map)).ends
  | pad target position count =>
    exact ((reads_method h.1).bind ((reads_natural h.2.1).bind
      (reads_natural h.2.2).map)).ends
  | cloneMethod template name =>
    exact ((reads_method h.1).bind (reads_word h.2).map).ends
  | insert target position i =>
    exact (reads_method h.1).bind_ends ((reads_natural h.2.1).bind_ends
      (ends_instruction h.2.2).map)
  | replace target position i =>
    exact (reads_method h.1).bind_ends ((reads_natural h.2.1).bind_ends
      (ends_instruction h.2.2).map)
  | copyRange target source first last position =>
    obtain ⟨ht, hs, hf, hl, hp⟩ := h
    exact ((reads_method ht).bind ((reads_method hs).bind ((reads_natural hf).bind
      ((reads_natural hl).bind (reads_natural hp).map)))).ends

theorem ends_operation (h : o.Spellable) : Ends operation o.spelling o.endsInText o :=
  (reads_word isWord_keyword).bind_ends (ends_fields h)

end Reader

variable {o : Operation} {before after : List Char}

/-- A line that spells an operation is read as the operation, whatever blanks stand between its
fields and around it; and unless it ends in free text, it cannot be read with one more word. -/
theorem readOperation_spelling (h : o.Spellable) (spaced : Spaced o.spelling line)
    (hb : ∀ c ∈ before, isBlank c = true) (ha : ∀ c ∈ after, isBlank c = true) :
    readOperation (before ++ line ++ after) = .ok o ∧
      (o.endsInText = false → ∀ gap word, IsGap gap → IsWord word →
        ∃ flaw, readOperation (before ++ (line ++ gap ++ word) ++ after) = .error flaw) := by
  have filled : o.spelling ≠ [] := List.cons_ne_nil _ _
  have ends := Reader.ends_operation h
  constructor
  · exact ends.run filled spaced hb ha
  · intro closed gap word hgap hw
    rw [closed] at ends
    exact ends.exists_run_error hw (spaced.concat filled hgap) hb ha

/-- An instance: a line with a tab in front and two blanks behind the keyword. -/
theorem readOperation_spelling_sample :
    readOperation "\tmake-public  Counter next ".toList =
        .ok (.makePublic ⟨"Counter", "next"⟩) ∧
      ∃ flaw, readOperation "\tmake-public  Counter next now ".toList = .error flaw := by
  have spellable : (Operation.makePublic ⟨"Counter", "next"⟩).Spellable :=
    ⟨by decide, by decide⟩
  have names : Spaced ["Counter".toList, "next".toList] "Counter next".toList :=
    @Spaced.cons "Counter".toList " ".toList _ _ _ (by decide) (.single "next".toList)
  have spaced : Spaced (Operation.makePublic ⟨"Counter", "next"⟩).spelling
      "make-public  Counter next".toList :=
    @Spaced.cons "make-public".toList "  ".toList _ _ _ (by decide) names
  have before : ∀ c ∈ "\t".toList, isBlank c = true := List.forall_mem_singleton.mpr (by decide)
  have after : ∀ c ∈ " ".toList, isBlank c = true := List.forall_mem_singleton.mpr (by decide)
  obtain ⟨read, closed⟩ := readOperation_spelling spellable spaced before after
  exact ⟨read, closed rfl " ".toList "now".toList (by decide) (by decide)⟩

end Plan

end Graft
