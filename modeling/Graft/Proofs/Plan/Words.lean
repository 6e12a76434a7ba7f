import Graft.Plan.Reader
import Mathlib.Data.List.TakeWhile

/-!
# Lines put together from fields

A line of a plan is a sequence of fields with blanks between them. A reader takes some of the fields
off the front of the line, however many blanks there are, and leaves a line of the others; what
readers take one after the other, they take together. The last field may be free text, which is
taken as it is to the end of the line.
-/

namespace Graft

/-! ## Fields and gaps -/

namespace Text

variable {cs gap word field line before after : List Char} {fields rest : List (List Char)}

/-- One blank or more, and nothing else. -/
structure IsGap (cs : List Char) : Prop where
  filled : cs ≠ []
  blank : ∀ c ∈ cs, isBlank c = true

/-- One character or more, and none of them a blank. -/
structure IsWord (cs : List Char) : Prop where
  filled : cs ≠ []
  solid : ∀ c ∈ cs, isBlank c = false

/-- The text starts and ends with characters that are no blanks. -/
structure IsField (cs : List Char) : Prop where
  front : ∃ c rest, cs = c :: rest ∧ isBlank c = false
  back : ∃ rest c, cs = rest ++ [c] ∧ isBlank c = false

/-- The line holds the fields in order, with a gap between any two. -/
inductive Spaced : List (List Char) → List Char → Prop where
  | nil : Spaced [] []
  | single (field : List Char) : Spaced [field] field
  | cons {field gap next line : List Char} {rest : List (List Char)} (hgap : IsGap gap)
    (h : Spaced (next :: rest) line) : Spaced (field :: next :: rest) (field ++ gap ++ line)

theorem isGap_iff : IsGap cs ↔ (! cs.isEmpty && cs.all isBlank) = true := by
  rw [Bool.and_eq_true, Bool.not_eq_true', List.isEmpty_eq_false_iff, List.all_eq_true]
  exact ⟨fun h => ⟨h.filled, h.blank⟩, fun h => ⟨h.1, h.2⟩⟩

theorem isWord_iff : IsWord cs ↔ (! cs.isEmpty && cs.all (! isBlank ·)) = true := by
  simp only [Bool.and_eq_true, Bool.not_eq_true', List.isEmpty_eq_false_iff, List.all_eq_true]
  exact ⟨fun h => ⟨h.filled, h.solid⟩, fun h => ⟨h.1, h.2⟩⟩

instance : Decidable (IsGap cs) := decidable_of_iff' _ isGap_iff

instance : Decidable (IsWord cs) := decidable_of_iff' _ isWord_iff

theorem IsWord.isField (h : IsWord word) : IsField word where
  front := by
    obtain ⟨c, rest, rfl⟩ := List.exists_cons_of_ne_nil h.filled
    exact ⟨c, rest, rfl, h.solid c List.mem_cons_self⟩
  back := by
    rcases List.eq_nil_or_concat word with none | ⟨rest, c, same⟩
    · exact absurd none h.filled
    · rw [List.concat_eq_append] at same
      subst same
      exact ⟨rest, c, rfl, h.solid c (by simp)⟩

theorem IsWord.any_isBlank (h : IsWord word) : word.any isBlank = false := by
  rw [List.any_eq_false]
  intro c hc
  simp [h.solid c hc]

theorem IsField.ne_nil (h : IsField field) : field ≠ [] := by
  obtain ⟨c, rest, rfl, -⟩ := h.front
  exact List.cons_ne_nil c rest

/-- Nothing is trimmed in front of a field. -/
theorem IsField.trimStart (h : IsField field) : trimStart (field ++ cs) = field ++ cs := by
  obtain ⟨c, rest, rfl, solid⟩ := h.front
  rw [Text.trimStart, List.cons_append, List.dropWhile_cons_of_neg (by simp [solid])]

theorem trimStart_append (blank : ∀ c ∈ gap, isBlank c = true) :
    trimStart (gap ++ cs) = trimStart cs :=
  List.dropWhile_append_of_pos blank

/-- Blanks behind a text are trimmed. -/
theorem trim_append (cs : List Char) (blank : ∀ c ∈ gap, isBlank c = true) :
    trim (cs ++ gap) = trim cs := by
  have behind : ∀ c ∈ gap.reverse, isBlank c = true := fun c hc => blank c (List.mem_reverse.mp hc)
  rw [trim, trim, trimStart, List.dropWhile_append]
  split
  · rename_i none
    rw [List.dropWhile_eq_nil_iff.mpr blank, trimStart, List.isEmpty_iff.mp none]
  · rw [trimEnd, trimEnd, trimStart, List.reverse_append, List.dropWhile_append_of_pos behind]
    rfl

/-- The blanks around a field are trimmed, and no more. -/
theorem IsField.trim (h : IsField field) (hb : ∀ c ∈ before, isBlank c = true)
    (ha : ∀ c ∈ after, isBlank c = true) : trim (before ++ field ++ after) = field := by
  obtain ⟨rest, c, same, solid⟩ := h.back
  have start : Text.trimStart (field ++ []) = field ++ [] := h.trimStart
  rw [List.append_nil] at start
  rw [trim_append _ ha, Text.trim, trimStart_append hb, start, trimEnd, same, List.reverse_append,
    List.reverse_singleton, List.singleton_append, Text.trimStart,
    List.dropWhile_cons_of_neg (by simp [solid]), List.reverse_cons, List.reverse_reverse]

/-- The front of a line that starts with a word. -/
theorem IsWord.takeWhile (h : IsWord word) (hgap : ∀ c ∈ gap.head?, isBlank c = true) :
    (word ++ gap).takeWhile (! isBlank ·) = word ∧
      (word ++ gap).dropWhile (! isBlank ·) = gap := by
  have solid : ∀ c ∈ word, (! isBlank c) = true := by
    intro c hc
    simp [h.solid c hc]
  rw [List.takeWhile_append_of_pos solid, List.dropWhile_append_of_pos solid]
  cases gap with
  | nil => exact ⟨List.append_nil word, rfl⟩
  | cons c gap =>
    have blank : isBlank c = true := hgap c rfl
    rw [List.takeWhile_cons_of_neg (by simp [blank]), List.dropWhile_cons_of_neg (by simp [blank]),
      List.append_nil]
    exact ⟨rfl, rfl⟩

theorem IsWord.nextWord? (h : IsWord word) (hgap : ∀ c ∈ gap.head?, isBlank c = true) :
    Text.nextWord? (word ++ gap) = some (word, Text.trimStart gap) := by
  obtain ⟨taken, dropped⟩ := h.takeWhile hgap
  have start : Text.trimStart (word ++ gap) = word ++ gap := h.isField.trimStart
  obtain ⟨c, rest, same⟩ := List.exists_cons_of_ne_nil
    (List.append_ne_nil_of_left_ne_nil h.filled gap)
  rw [Text.nextWord?, start]
  rw [same] at taken dropped ⊢
  simp only [taken, dropped]

/-! ## Lines of fields -/

theorem Spaced.nil_iff : Spaced [] line ↔ line = [] := by
  constructor
  · intro h
    cases h
    rfl
  · rintro rfl
    exact .nil

theorem Spaced.single_iff : Spaced [field] line ↔ line = field := by
  constructor
  · intro h
    cases h
    rfl
  · rintro rfl
    exact .single _

/-- A line of fields is a field itself, as far as blanks at its ends go. -/
theorem Spaced.isField (h : Spaced fields line) (filled : fields ≠ [])
    (all : ∀ field ∈ fields, IsField field) : IsField line := by
  induction h with
  | nil => exact absurd rfl filled
  | single field => exact all field List.mem_cons_self
  | @cons field gap next line rest hgap h ih =>
    obtain ⟨first, later⟩ := List.forall_mem_cons.mp all
    obtain ⟨c, front, rfl, hc⟩ := first.front
    obtain ⟨back, c', rfl, hc'⟩ := (ih (List.cons_ne_nil next rest) later).back
    exact ⟨⟨c, _, rfl, hc⟩, ⟨c :: front ++ gap ++ back, c', by simp, hc'⟩⟩

/-- One field more. -/
theorem Spaced.concat (h : Spaced fields line) (filled : fields ≠ []) (hgap : IsGap gap) :
    Spaced (fields ++ [field]) (line ++ gap ++ field) := by
  induction h with
  | nil => exact absurd rfl filled
  | single first => exact .cons hgap (.single field)
  | @cons first gap' next line rest hgap' h ih =>
    have later := ih (List.cons_ne_nil next rest)
    rw [List.append_assoc, List.append_assoc, ← List.append_assoc line]
    exact .cons hgap' later

/-- The first word of a line of fields is the first of them, if it is a word. -/
theorem Spaced.nextWord? (h : Spaced (word :: rest) line) (hw : IsWord word)
    (all : ∀ field ∈ rest, IsField field) :
    ∃ left, Spaced rest left ∧ Text.nextWord? line = some (word, left) := by
  cases h with
  | single =>
    refine ⟨[], .nil, ?_⟩
    have found : Text.nextWord? (word ++ []) = some (word, Text.trimStart []) := hw.nextWord? nofun
    rwa [List.append_nil] at found
  | @cons _ gap next left rest hgap h =>
    refine ⟨left, h, ?_⟩
    obtain ⟨c, gap', rfl⟩ := List.exists_cons_of_ne_nil hgap.filled
    have blank : ∀ d ∈ (c :: gap' ++ left).head?, isBlank d = true := by
      intro d hd
      cases hd
      exact hgap.blank c List.mem_cons_self
    have kept : trimStart (left ++ []) = left ++ [] :=
      (h.isField (List.cons_ne_nil next rest) all).trimStart
    rw [List.append_nil] at kept
    rw [List.append_assoc, hw.nextWord? blank, trimStart_append hgap.blank, kept]

end Text

/-! ## Numbers in decimal -/

namespace Number

open Text

variable {cs : List Char} {n limit : Nat}

theorem isDigit_iff {c : Char} : isDigit c = true ↔ c.isDigit = true := by
  simp [isDigit, Char.isDigit, Char.le_def]

theorem isBlank_of_isDigit {c : Char} (h : isDigit c = true) : isBlank c = false := by
  have low : 48 ≤ c.toNat ∧ c.toNat ≤ 57 := by
    simpa [isDigit, Char.le_def, UInt32.le_iff_toNat_le] using h
  rw [isBlank, Bool.eq_false_iff, ne_eq, CodeRanges.has_iff]
  rintro ⟨range, hr, above, below⟩
  simp only [blanks, List.mem_cons, List.not_mem_nil, or_false] at hr
  rcases hr with rfl | rfl | rfl | rfl | rfl | rfl | rfl | rfl | rfl | rfl <;>
    simp only at above below <;> omega

/-- The digits of a number, the highest first. -/
def decimal (n : Nat) : List Char := (toString n).toList

theorem decimal_eq : decimal n = Nat.toDigits 10 n := Nat.toList_repr

theorem isDigit_of_mem_decimal {c : Char} (h : c ∈ decimal n) : isDigit c = true := by
  rw [decimal_eq] at h
  exact isDigit_iff.mpr (Nat.isDigit_of_mem_toDigits (by decide) (by decide) h)

theorem decimal_ne_nil : decimal n ≠ [] := by
  rw [decimal_eq]
  exact Nat.toDigits_ne_nil

theorem ofDigits_decimal : ofDigits (decimal n) = n := by
  rw [decimal_eq]
  exact Nat.ofDigitChars_toDigits (by decide) (by decide)

theorem readDigits?_decimal : readDigits? (decimal n) = some n := by
  have digits : (decimal n).all isDigit = true :=
    List.all_eq_true.mpr fun c hc => isDigit_of_mem_decimal hc
  rw [readDigits?, if_pos ⟨decimal_ne_nil, digits⟩, ofDigits_decimal]

theorem isWord_decimal : IsWord (decimal n) :=
  ⟨decimal_ne_nil, fun _ hc => isBlank_of_isDigit (isDigit_of_mem_decimal hc)⟩

/-- A number starts with a digit and not with a sign. -/
theorem exists_decimal_eq_cons : ∃ c rest, decimal n = c :: rest ∧ c ≠ '+' ∧ c ≠ '-' := by
  obtain ⟨c, rest, same⟩ := List.exists_cons_of_ne_nil (decimal_ne_nil (n := n))
  have digit : isDigit c = true := isDigit_of_mem_decimal (same ▸ List.mem_cons_self)
  refine ⟨c, rest, same, ?_, ?_⟩
  · rintro rfl
    exact absurd digit (by decide)
  · rintro rfl
    exact absurd digit (by decide)

theorem readNatural?_decimal (h : n ≤ limit) : readNatural? limit (decimal n) = some n := by
  have read := readDigits?_decimal (n := n)
  obtain ⟨c, rest, same, plus, -⟩ := exists_decimal_eq_cons (n := n)
  rw [same] at read ⊢
  rw [readNatural?, read]
  · simp [h]
  · intro rest' signed
    exact plus (List.cons.inj signed).1

theorem readUInt16?_decimal (n : UInt16) : readUInt16? (decimal n.toNat) = some n := by
  have small : n.toNat ≤ UInt16.size - 1 := Nat.le_sub_one_of_lt n.toNat_lt
  rw [readUInt16?, readNatural?_decimal small, Option.map_some, UInt16.ofNat_toNat]

/-- A signed number in decimal, with a minus in front if it is negative. -/
def signedDecimal (i : Int) : List Char := (toString i).toList

theorem signedDecimal_ofNat : signedDecimal (n : Int) = decimal n := rfl

theorem signedDecimal_negSucc : signedDecimal (Int.negSucc n) = '-' :: decimal (n + 1) := by
  show ("-" ++ toString (n + 1)).toList = _
  rw [String.toList_append]
  rfl

theorem isWord_signedDecimal (i : Int) : IsWord (signedDecimal i) := by
  cases i with
  | ofNat n => exact isWord_decimal
  | negSucc n =>
    rw [signedDecimal_negSucc]
    refine ⟨List.cons_ne_nil _ _, ?_⟩
    intro c hc
    rcases List.mem_cons.mp hc with rfl | hc
    · decide
    · exact isWord_decimal.solid c hc

theorem readSigned?_signedDecimal {i low high : Int} (hl : low ≤ i) (hh : i ≤ high) :
    readSigned? low high (signedDecimal i) = some i := by
  cases i with
  | ofNat n =>
    have read := readDigits?_decimal (n := n)
    obtain ⟨c, rest, same, plus, minus⟩ := exists_decimal_eq_cons (n := n)
    have unsigned : signedDecimal (Int.ofNat n) = c :: rest := signedDecimal_ofNat.trans same
    rw [same] at read
    rw [unsigned, readSigned?, read]
    · simpa using ⟨hl, hh⟩
    · intro rest' signed
      exact minus (List.cons.inj signed).1
    · intro rest' signed
      exact plus (List.cons.inj signed).1
  | negSucc n =>
    have value : (readDigits? (decimal (n + 1))).map (fun n => -(n : Int)) =
        some (Int.negSucc n) := by rw [readDigits?_decimal]; rfl
    rw [signedDecimal_negSucc, readSigned?, value]
    simp [hl, hh]

theorem readInt32?_signedDecimal (i : Int32) : readInt32? (signedDecimal i.toInt) = some i := by
  rw [readInt32?, readSigned?_signedDecimal, Option.map_some, Int32.ofInt_toInt]
  · exact i.minValue_le_toInt
  · exact i.toInt_le

theorem readInt64?_signedDecimal (i : Int64) : readInt64? (signedDecimal i.toInt) = some i := by
  rw [readInt64?, readSigned?_signedDecimal, Option.map_some, Int64.ofInt_toInt]
  · exact i.minValue_le_toInt
  · exact i.toInt_le

end Number

/-! ## Readers -/

namespace Plan.Reader

open Text Number

variable {α γ : Type} {r : Reader α} {f : α → Reader γ} {fields fields' : List (List Char)}
  {a : α} {c : γ} {free : Bool} {what : String} {word gap line before after : List Char}

/-- The reader takes the fields off the front of any line that starts with them. -/
structure Reads (r : Reader α) (fields : List (List Char)) (a : α) : Prop where
  solid : ∀ field ∈ fields, IsField field
  front : ∀ rest line, (∀ field ∈ rest, IsField field) → Spaced (fields ++ rest) line →
    ∃ left, Spaced rest left ∧ r line = .ok (a, left)

/-- The reader takes a line of the fields to its end. If the last of them is not `free`, it takes no
word that stands behind them: it finds fault with the line or leaves the word. -/
structure Ends (r : Reader α) (fields : List (List Char)) (free : Bool) (a : α) : Prop where
  solid : ∀ field ∈ fields, IsField field
  whole : ∀ line, Spaced fields line → r line = .ok (a, [])
  closed : free = false → ∀ word line, IsWord word → Spaced (fields ++ [word]) line →
    (∃ flaw, r line = .error flaw) ∨ ∃ a', r line = .ok (a', word)

theorem bind_eq {line left : List Char} (h : r line = .ok (a, left)) :
    (r >>= f) line = f a left := by
  show (r line >>= fun out => f out.1 out.2) = _
  rw [h]
  rfl

theorem Reads.pure (a : α) : Reads (pure a) [] a where
  solid := List.forall_mem_nil _
  front _ line _ spaced := ⟨line, spaced, rfl⟩

theorem Reads.bind (h : Reads r fields a) (hf : Reads (f a) fields' c) :
    Reads (r >>= f) (fields ++ fields') c where
  solid := List.forall_mem_append.mpr ⟨h.solid, hf.solid⟩
  front := by
    intro rest line later spaced
    rw [List.append_assoc] at spaced
    obtain ⟨left, spaced', read⟩ :=
      h.front _ line (List.forall_mem_append.mpr ⟨hf.solid, later⟩) spaced
    obtain ⟨left', spaced'', read'⟩ := hf.front rest left later spaced'
    exact ⟨left', spaced'', (bind_eq read).trans read'⟩

/-- What was read decides the result. -/
theorem Reads.bind_pure (h : Reads r fields a) (hf : f a = Pure.pure c) :
    Reads (r >>= f) fields c := by
  have done : Reads (f a) [] c := hf ▸ .pure c
  have read := h.bind done
  rwa [List.append_nil] at read

theorem Reads.map {g : α → γ} (h : Reads r fields a) : Reads (do return g (← r)) fields (g a) :=
  h.bind_pure rfl

/-- A reader that takes the fields off the front takes a line of them to its end, and no more. -/
theorem Reads.ends (h : Reads r fields a) : Ends r fields free a where
  solid := h.solid
  whole := by
    intro line spaced
    obtain ⟨left, none, read⟩ :=
      h.front [] line (List.forall_mem_nil _) (by rwa [List.append_nil])
    rwa [Spaced.nil_iff.mp none] at read
  closed := by
    intro _ word line hw spaced
    obtain ⟨left, single, read⟩ := h.front [word] line (by simpa using hw.isField) spaced
    rw [Spaced.single_iff.mp single] at read
    exact .inr ⟨a, read⟩

theorem Reads.bind_ends (h : Reads r fields a) (hf : Ends (f a) fields' free c) :
    Ends (r >>= f) (fields ++ fields') free c where
  solid := List.forall_mem_append.mpr ⟨h.solid, hf.solid⟩
  whole := by
    intro line spaced
    obtain ⟨left, spaced', read⟩ := h.front fields' line hf.solid spaced
    exact (bind_eq read).trans (hf.whole left spaced')
  closed := by
    intro closed word line hw spaced
    have later : ∀ field ∈ fields' ++ [word], IsField field :=
      List.forall_mem_append.mpr ⟨hf.solid, by simpa using hw.isField⟩
    rw [List.append_assoc] at spaced
    obtain ⟨left, spaced', read⟩ := h.front _ line later spaced
    rw [bind_eq read]
    exact hf.closed closed word left hw spaced'

theorem Ends.map {g : α → γ} (h : Ends r fields free a) :
    Ends (do return g (← r)) fields free (g a) where
  solid := h.solid
  whole line spaced := bind_eq (h.whole line spaced)
  closed := by
    intro closed word line hw spaced
    rcases h.closed closed word line hw spaced with ⟨flaw, failed⟩ | ⟨a', read⟩
    · refine .inl ⟨flaw, ?_⟩
      show (r line >>= fun out => (Pure.pure (g out.1) : Reader γ) out.2) = _
      rw [failed]
      rfl
    · exact .inr ⟨g a', bind_eq read⟩

/-! ### Readers of one field -/

theorem reads_chars (h : IsWord word) : Reads (chars what) [word] word where
  solid := by simpa using h.isField
  front := by
    intro rest line later spaced
    obtain ⟨left, spaced', found⟩ := spaced.nextWord? h later
    refine ⟨left, spaced', ?_⟩
    rw [chars, found]

theorem reads_word {name : String} (h : IsWord name.toList) :
    Reads (Reader.word what) [name.toList] name := by
  have taken : Reads (chars what) [name.toList] name.toList := reads_chars h
  have read := Reads.bind_pure taken (f := fun cs => Pure.pure (String.ofList cs)) rfl
  rwa [String.ofList_toList] at read

theorem reads_natural {n : Nat} (h : n ≤ maxNatural) : Reads (natural what) [decimal n] n := by
  refine Reads.bind_pure (reads_chars isWord_decimal) ?_
  rw [readNatural?_decimal h]

theorem reads_operand {read? : List Char → Option α} (h : IsWord word)
    (found : read? word = some a) : Reads (operand what read?) [word] a := by
  refine Reads.bind_pure (reads_chars h) ?_
  rw [found]

/-! ### Whole lines -/

/-- A line of the fields is read whatever blanks are around it. -/
theorem Ends.run (h : Ends r fields free a) (filled : fields ≠ []) (spaced : Spaced fields line)
    (hb : ∀ c ∈ before, isBlank c = true) (ha : ∀ c ∈ after, isBlank c = true) :
    r.run (before ++ line ++ after) = .ok a := by
  have trimmed := (spaced.isField filled h.solid).trim hb ha
  rw [Reader.run, trimmed, h.whole line spaced]
  rfl

/-- A word behind the fields is one too many, unless the last field is free. -/
theorem Ends.exists_run_error (h : Ends r fields false a) (hw : IsWord word)
    (spaced : Spaced (fields ++ [word]) line) (hb : ∀ c ∈ before, isBlank c = true)
    (ha : ∀ c ∈ after, isBlank c = true) :
    ∃ flaw, r.run (before ++ line ++ after) = .error flaw := by
  have all : ∀ field ∈ fields ++ [word], IsField field :=
    List.forall_mem_append.mpr ⟨h.solid, by simpa using hw.isField⟩
  have trimmed := (spaced.isField (by simp) all).trim hb ha
  rcases h.closed rfl word line hw spaced with ⟨flaw, failed⟩ | ⟨a', read⟩
  · refine ⟨flaw, ?_⟩
    rw [Reader.run, trimmed, failed]
    rfl
  · refine ⟨.trailing (String.ofList word), ?_⟩
    rw [Reader.run, trimmed, read]
    show (if word ≠ [] then _ else _) = _
    rw [if_pos hw.filled]
    rfl

end Plan.Reader

end Graft
