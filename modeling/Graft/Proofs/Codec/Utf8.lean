import Graft.Text.Utf8

/-!
# Texts as bytes

A text comes back from its bytes, and from no other bytes. The bytes of a character fall in one of
four ranges by its number; in each of them the decoder takes the bytes apart in the same way as they
were put together, and the second byte rules out numbers that are written with fewer bytes.
-/

namespace Graft.Text.Utf8

variable {a b b' b'' : UInt8} {index : Nat} {before cs : List Char} {rest : List UInt8}

/-! ## Kinds of bytes -/

theorem leadsOne_iff : a < 0x80 ↔ a.toNat < 0x80 := UInt8.lt_iff_toNat_lt

theorem leadsTwo_iff : (0xc2 ≤ a && a ≤ 0xdf) = true ↔ 0xc2 ≤ a.toNat ∧ a.toNat ≤ 0xdf := by
  simp [UInt8.le_iff_toNat_le]

theorem leadsThree_iff : (0xe0 ≤ a && a ≤ 0xef) = true ↔ 0xe0 ≤ a.toNat ∧ a.toNat ≤ 0xef := by
  simp [UInt8.le_iff_toNat_le]

theorem leadsFour_iff : (0xf0 ≤ a && a ≤ 0xf4) = true ↔ 0xf0 ≤ a.toNat ∧ a.toNat ≤ 0xf4 := by
  simp [UInt8.le_iff_toNat_le]

theorem isTail_iff : isTail b = true ↔ 0x80 ≤ b.toNat ∧ b.toNat ≤ 0xbf := by
  simp [isTail, UInt8.le_iff_toNat_le]

theorem isSecondOfThree_iff :
    isSecondOfThree a b = true ↔ (0x80 ≤ b.toNat ∧ b.toNat ≤ 0xbf) ∧
      (a.toNat = 0xe0 → 0xa0 ≤ b.toNat) ∧ (a.toNat = 0xed → b.toNat ≤ 0x9f) := by
  simp only [isSecondOfThree, Bool.and_eq_true, Bool.or_eq_true, isTail_iff, bne_iff_ne,
    decide_eq_true_eq, UInt8.le_iff_toNat_le, ← UInt8.toNat_inj, ne_eq, and_assoc,
    ← Decidable.imp_iff_not_or]
  rfl

theorem isSecondOfFour_iff :
    isSecondOfFour a b = true ↔ (0x80 ≤ b.toNat ∧ b.toNat ≤ 0xbf) ∧
      (a.toNat = 0xf0 → 0x90 ≤ b.toNat) ∧ (a.toNat = 0xf4 → b.toNat ≤ 0x8f) := by
  simp only [isSecondOfFour, Bool.and_eq_true, Bool.or_eq_true, isTail_iff, bne_iff_ne,
    decide_eq_true_eq, UInt8.le_iff_toNat_le, ← UInt8.toNat_inj, ne_eq, and_assoc,
    ← Decidable.imp_iff_not_or]
  rfl

/-! ## One character -/

theorem decodeFrom_one (lead : a.toNat < 0x80) :
    decodeFrom index before (a :: rest) =
      decodeFrom (index + 1) (Char.ofNat a.toNat :: before) rest := by
  rw [decodeFrom.eq_def]
  exact if_pos (leadsOne_iff.mpr lead)

theorem decodeFrom_two (low : 0xc2 ≤ a.toNat) (high : a.toNat ≤ 0xdf) (tail : isTail b = true) :
    decodeFrom index before (a :: b :: rest) =
      decodeFrom (index + 2) (Char.ofNat ((a.toNat - 0xc0) * 0x40 + tailBits b) :: before)
        rest := by
  have notOne : ¬ a < 0x80 := mt leadsOne_iff.mp (by omega)
  have isTwo := leadsTwo_iff.mpr ⟨low, high⟩
  rw [decodeFrom.eq_def]
  simp only [if_neg notOne, if_pos isTwo, if_pos tail]

theorem decodeFrom_three (low : 0xe0 ≤ a.toNat) (high : a.toNat ≤ 0xef)
    (second : isSecondOfThree a b = true) (tail : isTail b' = true) :
    decodeFrom index before (a :: b :: b' :: rest) =
      decodeFrom (index + 3)
        (Char.ofNat ((a.toNat - 0xe0) * 0x1000 + tailBits b * 0x40 + tailBits b') :: before)
        rest := by
  have notOne : ¬ a < 0x80 := mt leadsOne_iff.mp (by omega)
  have notTwo : ¬ (0xc2 ≤ a && a ≤ 0xdf) = true := mt leadsTwo_iff.mp (by omega)
  have isThree := leadsThree_iff.mpr ⟨low, high⟩
  rw [decodeFrom.eq_def]
  simp only [if_neg notOne, if_neg notTwo, if_pos isThree, second, if_pos tail, Bool.not_true,
    Bool.false_eq_true, if_false]

theorem decodeFrom_four (low : 0xf0 ≤ a.toNat) (high : a.toNat ≤ 0xf4)
    (second : isSecondOfFour a b = true) (tail : isTail b' = true) (tail' : isTail b'' = true) :
    decodeFrom index before (a :: b :: b' :: b'' :: rest) =
      decodeFrom (index + 4)
        (Char.ofNat ((a.toNat - 0xf0) * 0x40000 + tailBits b * 0x1000 + tailBits b' * 0x40
          + tailBits b'') :: before) rest := by
  have notOne : ¬ a < 0x80 := mt leadsOne_iff.mp (by omega)
  have notTwo : ¬ (0xc2 ≤ a && a ≤ 0xdf) = true := mt leadsTwo_iff.mp (by omega)
  have notThree : ¬ (0xe0 ≤ a && a ≤ 0xef) = true := mt leadsThree_iff.mp (by omega)
  have isFour := leadsFour_iff.mpr ⟨low, high⟩
  rw [decodeFrom.eq_def]
  simp only [if_neg notOne, if_neg notTwo, if_neg notThree, if_pos isFour, second, tail,
    if_pos tail', Bool.not_true, Bool.false_eq_true, if_false]

theorem toNat_ofNat {n : Nat} (h : n < 0x100) : (UInt8.ofNat n).toNat = n :=
  UInt8.toNat_ofNat_of_lt' h

/-- A byte that carries six bits of a number. -/
theorem toNat_tail (k : Nat) : (UInt8.ofNat (0x80 + k % 0x40)).toNat = 0x80 + k % 0x40 :=
  toNat_ofNat (by omega)

theorem isTail_tail (k : Nat) : isTail (UInt8.ofNat (0x80 + k % 0x40)) = true := by
  rw [isTail_iff, toNat_tail]
  omega

theorem tailBits_tail (k : Nat) : tailBits (UInt8.ofNat (0x80 + k % 0x40)) = k % 0x40 := by
  have := toNat_tail k
  unfold tailBits
  omega

/-- The bytes of a character in front are taken, and give the character. -/
theorem decodeFrom_encodeChar (c : Char) :
    decodeFrom index before (encodeChar c ++ rest) =
      decodeFrom (index + (encodeChar c).length) (c :: before) rest := by
  have valid : c.toNat < 0xd800 ∨ 0xdfff < c.toNat ∧ c.toNat < 0x110000 := c.valid
  rw [encodeChar]
  generalize hn : c.toNat = n at valid
  have back : ∀ k, k = n → Char.ofNat k = c := fun k hk => by rw [hk, ← hn, Char.ofNat_toNat]
  simp only
  split
  · rename_i one
    have lead := toNat_ofNat (n := n) (by omega)
    rw [List.singleton_append, decodeFrom_one (by omega), back _ lead]
    rfl
  split
  · rename_i two
    have lead := toNat_ofNat (n := 0xc0 + n / 0x40) (by omega)
    rw [List.cons_append, List.singleton_append,
      decodeFrom_two (by omega) (by omega) (isTail_tail _), back]
    · rfl
    · rw [lead, tailBits_tail]
      omega
  split
  · rename_i three
    have lead := toNat_ofNat (n := 0xe0 + n / 0x1000) (by omega)
    have second : isSecondOfThree (UInt8.ofNat (0xe0 + n / 0x1000))
        (UInt8.ofNat (0x80 + n / 0x40 % 0x40)) = true := by
      rw [isSecondOfThree_iff, lead, toNat_tail]
      omega
    rw [List.cons_append, List.cons_append, List.singleton_append,
      decodeFrom_three (by omega) (by omega) second (isTail_tail _), back]
    · rfl
    · rw [lead, tailBits_tail, tailBits_tail]
      omega
  · rename_i four
    have lead := toNat_ofNat (n := 0xf0 + n / 0x40000) (by omega)
    have second : isSecondOfFour (UInt8.ofNat (0xf0 + n / 0x40000))
        (UInt8.ofNat (0x80 + n / 0x1000 % 0x40)) = true := by
      rw [isSecondOfFour_iff, lead, toNat_tail]
      omega
    rw [List.cons_append, List.cons_append, List.cons_append, List.singleton_append,
      decodeFrom_four (by omega) (by omega) second (isTail_tail _) (isTail_tail _), back]
    · rfl
    · rw [lead, tailBits_tail, tailBits_tail, tailBits_tail]
      omega

/-! ## Texts -/

theorem decodeFrom_encode :
    decodeFrom index before (encode cs) = .ok (before.reverse ++ cs) := by
  induction cs generalizing index before with
  | nil =>
    rw [List.append_nil]
    rfl
  | cons c cs ih =>
    rw [encode, List.flatMap_cons, decodeFrom_encodeChar]
    exact ih.trans (by rw [List.reverse_cons, List.append_assoc, List.singleton_append])

theorem decode_encode (cs : List Char) : decode (encode cs) = .ok cs := decodeFrom_encode

/-- A string comes back from its bytes. -/
theorem decodeString_encodeString (s : String) : decodeString (encodeString s) = .ok s := by
  rw [decodeString, encodeString, decode_encode]
  exact congrArg Except.ok (String.ofList_toList)

/-! ## Lengths -/

theorem length_encodeChar (c : Char) : (encodeChar c).length = c.utf8Size := by
  have size : c.utf8Size = if c.toNat ≤ 0x7f then 1 else if c.toNat ≤ 0x7ff then 2
      else if c.toNat ≤ 0xffff then 3 else 4 := by
    simp only [Char.utf8Size, UInt32.le_iff_toNat_le]
    rfl
  rw [size, encodeChar]
  simp only [Nat.lt_succ_iff, apply_ite List.length, List.length_cons, List.length_nil]

theorem length_encode (cs : List Char) :
    (encode cs).length = (String.ofList cs).utf8ByteSize := by
  induction cs with
  | nil => rfl
  | cons c cs ih =>
    rw [encode, List.flatMap_cons, List.length_append, length_encodeChar, String.ofList_cons,
      String.utf8ByteSize_append, String.utf8ByteSize_singleton, ← ih]
    rfl

/-- A string has as many bytes as its length says. -/
theorem length_encodeString (s : String) : (encodeString s).length = s.utf8ByteSize := by
  rw [encodeString, length_encode, String.ofList_toList]

/-! ## No other bytes -/

theorem toNat_charOfNat {n : Nat} (h : n < 0xd800 ∨ 0xdfff < n ∧ n < 0x110000) :
    (Char.ofNat n).toNat = n := by
  have valid : n.isValidChar := h
  rw [Char.ofNat, dif_pos valid]
  rfl

theorem toNat_eq_of_isTail (tail : isTail b = true) : b.toNat = 0x80 + tailBits b := by
  have := (isTail_iff.mp tail).1
  unfold tailBits
  omega

/-- A continuation byte is spelled by the six bits that it carries. -/
theorem ofNat_eq_of_isTail {k : Nat} (tail : isTail b = true) (bits : k % 0x40 = tailBits b) :
    UInt8.ofNat (0x80 + k % 0x40) = b := by
  rw [bits, ← toNat_eq_of_isTail tail, UInt8.ofNat_toNat]

theorem tailBits_lt (tail : isTail b = true) : tailBits b < 0x40 := by
  have := (isTail_iff.mp tail).2
  unfold tailBits
  omega

theorem ofNat_eq_of_toNat {k : Nat} (h : k = a.toNat) : UInt8.ofNat k = a := by
  rw [h, UInt8.ofNat_toNat]

theorem encodeChar_one (lead : a.toNat < 0x80) : encodeChar (Char.ofNat a.toNat) = [a] := by
  simp only [encodeChar, toNat_charOfNat (Or.inl (Nat.lt_trans lead (by decide))), if_pos lead,
    UInt8.ofNat_toNat]

theorem encodeChar_two (low : 0xc2 ≤ a.toNat) (high : a.toNat ≤ 0xdf) (tail : isTail b = true) :
    encodeChar (Char.ofNat ((a.toNat - 0xc0) * 0x40 + tailBits b)) = [a, b] := by
  have bits := tailBits_lt tail
  generalize hn : (a.toNat - 0xc0) * 0x40 + tailBits b = n
  have valid : n < 0xd800 ∨ 0xdfff < n ∧ n < 0x110000 := by omega
  have lead : 0xc0 + n / 0x40 = a.toNat := by omega
  have last : n / 1 % 0x40 = tailBits b := by omega
  simp only [encodeChar, toNat_charOfNat valid, if_neg (show ¬ n < 0x80 by omega),
    if_pos (show n < 0x800 by omega), ofNat_eq_of_toNat lead, ofNat_eq_of_isTail tail last]

theorem encodeChar_three (low : 0xe0 ≤ a.toNat) (high : a.toNat ≤ 0xef)
    (second : isSecondOfThree a b = true) (tail : isTail b' = true) :
    encodeChar (Char.ofNat ((a.toNat - 0xe0) * 0x1000 + tailBits b * 0x40 + tailBits b')) =
      [a, b, b'] := by
  obtain ⟨inner, notLong, notSurrogate⟩ := isSecondOfThree_iff.mp second
  have middle := toNat_eq_of_isTail (isTail_iff.mpr inner)
  have bits := tailBits_lt tail
  generalize hn : (a.toNat - 0xe0) * 0x1000 + tailBits b * 0x40 + tailBits b' = n
  have valid : n < 0xd800 ∨ 0xdfff < n ∧ n < 0x110000 := by omega
  have lead : 0xe0 + n / 0x1000 = a.toNat := by omega
  have next : n / 0x40 % 0x40 = tailBits b := by omega
  have last : n / 1 % 0x40 = tailBits b' := by omega
  simp only [encodeChar, toNat_charOfNat valid, if_neg (show ¬ n < 0x80 by omega),
    if_neg (show ¬ n < 0x800 by omega), if_pos (show n < 0x10000 by omega), ofNat_eq_of_toNat lead,
    ofNat_eq_of_isTail (isTail_iff.mpr inner) next, ofNat_eq_of_isTail tail last]

theorem encodeChar_four (low : 0xf0 ≤ a.toNat) (high : a.toNat ≤ 0xf4)
    (second : isSecondOfFour a b = true) (tail : isTail b' = true) (tail' : isTail b'' = true) :
    encodeChar (Char.ofNat ((a.toNat - 0xf0) * 0x40000 + tailBits b * 0x1000 + tailBits b' * 0x40
      + tailBits b'')) = [a, b, b', b''] := by
  obtain ⟨inner, notLong, notPast⟩ := isSecondOfFour_iff.mp second
  have middle := toNat_eq_of_isTail (isTail_iff.mpr inner)
  have bits := tailBits_lt tail
  have bits' := tailBits_lt tail'
  generalize hn : (a.toNat - 0xf0) * 0x40000 + tailBits b * 0x1000 + tailBits b' * 0x40
    + tailBits b'' = n
  have valid : n < 0xd800 ∨ 0xdfff < n ∧ n < 0x110000 := by omega
  have lead : 0xf0 + n / 0x40000 = a.toNat := by omega
  have next : n / 0x1000 % 0x40 = tailBits b := by omega
  have third : n / 0x40 % 0x40 = tailBits b' := by omega
  have last : n / 1 % 0x40 = tailBits b'' := by omega
  simp only [encodeChar, toNat_charOfNat valid, if_neg (show ¬ n < 0x80 by omega),
    if_neg (show ¬ n < 0x800 by omega), if_neg (show ¬ n < 0x10000 by omega),
    ofNat_eq_of_toNat lead, ofNat_eq_of_isTail (isTail_iff.mpr inner) next,
    ofNat_eq_of_isTail tail third, ofNat_eq_of_isTail tail' last]

/-- The bytes begin with those of a character, and what is left is read behind it. -/
def TakesChar (index : Nat) (before : List Char) (bytes : List UInt8) (cs : List Char) : Prop :=
  ∃ c left, bytes = encodeChar c ++ left ∧
    decodeFrom (index + (encodeChar c).length) (c :: before) left = .ok cs

theorem takesChar_of_front {front : List UInt8} {c : Char} (spelled : encodeChar c = front)
    (h : decodeFrom (index + front.length) (c :: before) rest = .ok cs) :
    TakesChar index before (front ++ rest) cs := by
  subst spelled
  exact ⟨c, rest, rfl, h⟩

/-- Behind a lead byte, what is read are the continuation bytes that it announces. -/
theorem takesChar_two (low : 0xc2 ≤ a.toNat) (high : a.toNat ≤ 0xdf)
    (h : decodeFrom index before (a :: rest) = .ok cs) :
    TakesChar index before (a :: rest) cs := by
  have notOne : ¬ a < 0x80 := mt leadsOne_iff.mp (by omega)
  rw [decodeFrom.eq_def] at h
  simp only [if_neg notOne, if_pos (leadsTwo_iff.mpr ⟨low, high⟩)] at h
  cases rest with
  | nil => cases h
  | cons b rest =>
    cases tail : isTail b with
    | false => simp [tail] at h
    | true =>
      simp only [tail, if_true] at h
      exact takesChar_of_front (encodeChar_two low high tail) h

theorem takesChar_three (low : 0xe0 ≤ a.toNat) (high : a.toNat ≤ 0xef)
    (h : decodeFrom index before (a :: rest) = .ok cs) :
    TakesChar index before (a :: rest) cs := by
  have notOne : ¬ a < 0x80 := mt leadsOne_iff.mp (by omega)
  have notTwo : ¬ (0xc2 ≤ a && a ≤ 0xdf) = true := mt leadsTwo_iff.mp (by omega)
  rw [decodeFrom.eq_def] at h
  simp only [if_neg notOne, if_neg notTwo, if_pos (leadsThree_iff.mpr ⟨low, high⟩)] at h
  cases rest with
  | nil => cases h
  | cons b rest =>
    cases second : isSecondOfThree a b with
    | false => simp [second] at h
    | true =>
      cases rest with
      | nil => simp [second] at h
      | cons b' rest =>
        cases tail : isTail b' with
        | false => simp [second, tail] at h
        | true =>
          simp only [second, tail, Bool.not_true, Bool.false_eq_true, if_false, if_true] at h
          exact takesChar_of_front (encodeChar_three low high second tail) h

theorem takesChar_four (low : 0xf0 ≤ a.toNat) (high : a.toNat ≤ 0xf4)
    (h : decodeFrom index before (a :: rest) = .ok cs) :
    TakesChar index before (a :: rest) cs := by
  have notOne : ¬ a < 0x80 := mt leadsOne_iff.mp (by omega)
  have notTwo : ¬ (0xc2 ≤ a && a ≤ 0xdf) = true := mt leadsTwo_iff.mp (by omega)
  have notThree : ¬ (0xe0 ≤ a && a ≤ 0xef) = true := mt leadsThree_iff.mp (by omega)
  rw [decodeFrom.eq_def] at h
  simp only [if_neg notOne, if_neg notTwo, if_neg notThree,
    if_pos (leadsFour_iff.mpr ⟨low, high⟩)] at h
  cases rest with
  | nil => cases h
  | cons b rest =>
    cases second : isSecondOfFour a b with
    | false => simp [second] at h
    | true =>
      cases rest with
      | nil => simp [second] at h
      | cons b' rest =>
        cases tail : isTail b' with
        | false => simp [second, tail] at h
        | true =>
          cases rest with
          | nil => simp [second, tail] at h
          | cons b'' rest =>
            cases tail' : isTail b'' with
            | false => simp [second, tail, tail'] at h
            | true =>
              simp only [second, tail, tail', Bool.not_true, Bool.false_eq_true, if_false,
                if_true] at h
              exact takesChar_of_front (encodeChar_four low high second tail tail') h

/-- Bytes that are read begin with the bytes of a character, which is put behind those before. -/
theorem takesChar_of_decodeFrom (h : decodeFrom index before (a :: rest) = .ok cs) :
    TakesChar index before (a :: rest) cs := by
  by_cases one : a.toNat < 0x80
  · rw [decodeFrom_one one] at h
    exact takesChar_of_front (encodeChar_one one) h
  by_cases two : 0xc2 ≤ a.toNat ∧ a.toNat ≤ 0xdf
  · exact takesChar_two two.1 two.2 h
  by_cases three : 0xe0 ≤ a.toNat ∧ a.toNat ≤ 0xef
  · exact takesChar_three three.1 three.2 h
  by_cases four : 0xf0 ≤ a.toNat ∧ a.toNat ≤ 0xf4
  · exact takesChar_four four.1 four.2 h
  · -- no other byte leads a character
    rw [decodeFrom.eq_def] at h
    simp only [mt leadsOne_iff.mp one, mt leadsTwo_iff.mp two, mt leadsThree_iff.mp three,
      mt leadsFour_iff.mp four, if_false] at h
    cases h

theorem encodeChar_ne_nil (c : Char) : encodeChar c ≠ [] := by
  intro none
  have := c.utf8Size_pos
  rw [← length_encodeChar, none] at this
  exact absurd this (Nat.lt_irrefl 0)

/-- Bytes that are read as a text are the bytes of that text. -/
theorem encode_of_decodeFrom {bytes : List UInt8} (h : decodeFrom index before bytes = .ok cs) :
    ∃ more, cs = before.reverse ++ more ∧ bytes = encode more := by
  -- On the number of bytes: a step takes a whole character.
  induction n : bytes.length using Nat.strongRecOn generalizing bytes index before with
  | _ n ih =>
    cases bytes with
    | nil =>
      cases h
      exact ⟨[], by rw [List.append_nil], rfl⟩
    | cons a rest =>
      obtain ⟨c, left, front, following⟩ := takesChar_of_decodeFrom h
      have size := congrArg List.length front
      rw [List.length_append] at size
      have taken := List.length_pos_iff.mpr (encodeChar_ne_nil c)
      obtain ⟨more, rfl, rfl⟩ := ih left.length (by omega) following rfl
      refine ⟨c :: more, ?_, front.trans ?_⟩
      · rw [List.reverse_cons, List.append_assoc, List.singleton_append]
      · rw [encode, encode, List.flatMap_cons]

theorem encodeString_of_decodeString {bytes : List UInt8} {s : String}
    (h : decodeString bytes = .ok s) : bytes = encodeString s := by
  rw [decodeString, decode] at h
  cases read : decodeFrom 0 [] bytes with
  | error flaw => rw [read] at h; cases h
  | ok cs =>
    rw [read] at h
    cases h
    obtain ⟨more, rfl, spelled⟩ := encode_of_decodeFrom read
    rw [spelled, encodeString, String.toList_ofList]

end Graft.Text.Utf8
