import Graft.ModuleFile.Agreement
import Graft.Proofs.Codec.Canonical

/-!
# When files agree

Agreement compares constants as numbers, so it is not equality: the two zeros agree, and NaN does
not agree with itself. Files agree exactly if no constant of the first is NaN and they are equal but
for the signs of zeros. So a file that was written agrees with what is read back exactly if no
constant in it is NaN.
-/

namespace Graft

/-! ## Numbers -/

namespace Number.BinaryFormat

variable {f : BinaryFormat} {a b : Nat}

/-- The number without its sign if it is a zero. -/
def unsigned (f : BinaryFormat) (bits : Nat) : Nat := if bits % f.signWeight = 0 then 0 else bits

theorem unsigned_lt {n : Nat} (h : a < n) : f.unsigned a < n := by
  rw [unsigned]
  split
  · exact Nat.zero_lt_of_lt h
  · exact h

theorem equal_eq_true : f.equal a b = true ↔ f.parts a ≠ .nan ∧ f.unsigned a = f.unsigned b := by
  have numbers : (a = b ∨ a % f.signWeight = 0 ∧ b % f.signWeight = 0) ↔
      f.unsigned a = f.unsigned b := by
    have zero : 0 % f.signWeight = 0 := Nat.zero_mod _
    rw [unsigned, unsigned]
    constructor
    · rintro (rfl | ⟨ha, hb⟩)
      · rfl
      · rw [if_pos ha, if_pos hb]
    · intro same
      split at same <;> split at same <;> simp_all
  rw [← numbers]
  simp [equal]

end Number.BinaryFormat

/-! ## Instructions -/

namespace Instruction

open Number (BinaryFormat)

variable {L : Type} {i j : Instruction L}

/-- The instruction pushes NaN. -/
def IsNaN : Instruction L → Prop
  | ldcR4 bits => BinaryFormat.single.parts bits.toNat = .nan
  | ldcR8 bits => BinaryFormat.double.parts bits.toNat = .nan
  | _ => False

/-- The instruction without the sign of the zero that it pushes. -/
def unsigned : Instruction L → Instruction L
  | ldcR4 bits => ldcR4 (.ofNat (BinaryFormat.single.unsigned bits.toNat))
  | ldcR8 bits => ldcR8 (.ofNat (BinaryFormat.double.unsigned bits.toNat))
  | i => i

/-- An instruction that pushes no floating-point number is left alone, and no other becomes it. -/
theorem unsigned_eq_iff (single : ∀ bits, i ≠ ldcR4 bits) (double : ∀ bits, i ≠ ldcR8 bits) :
    j.unsigned = i ↔ j = i := by
  constructor
  · intro same
    unfold unsigned at same
    split at same
    · exact absurd same.symm (single _)
    · exact absurd same.symm (double _)
    · exact same
  · rintro rfl
    unfold unsigned
    split
    · exact absurd rfl (single _)
    · exact absurd rfl (double _)
    · rfl

theorem agrees_eq_true [DecidableEq L] :
    i.agrees j = true ↔ ¬ i.IsNaN ∧ i.unsigned = j.unsigned := by
  unfold agrees
  split
  · rename_i a b
    rw [BinaryFormat.equal_eq_true, unsigned, unsigned, ldcR4.injEq, ← UInt32.toNat_inj,
      UInt32.toNat_ofNat_of_lt' (BinaryFormat.unsigned_lt a.toNat_lt),
      UInt32.toNat_ofNat_of_lt' (BinaryFormat.unsigned_lt b.toNat_lt)]
    rfl
  · rename_i a b
    rw [BinaryFormat.equal_eq_true, unsigned, unsigned, ldcR8.injEq, ← UInt64.toNat_inj,
      UInt64.toNat_ofNat_of_lt' (BinaryFormat.unsigned_lt a.toNat_lt),
      UInt64.toNat_ofNat_of_lt' (BinaryFormat.unsigned_lt b.toNat_lt)]
    rfl
  · rename_i single double
    rw [decide_eq_true_iff]
    cases i with
    | ldcR4 a =>
      refine iff_of_false (fun same => single a a rfl same.symm) ?_
      rintro ⟨-, same⟩
      cases j with
      | ldcR4 b => exact single a b rfl rfl
      | _ => cases same
    | ldcR8 a =>
      refine iff_of_false (fun same => double a a rfl same.symm) ?_
      rintro ⟨-, same⟩
      cases j with
      | ldcR8 b => exact double a b rfl rfl
      | _ => cases same
    | _ =>
      rw [eq_comm, eq_comm (b := unsigned j)]
      exact (unsigned_eq_iff (by simp) (by simp)).symm.trans (and_iff_right id).symm

end Instruction

/-! ## Files -/

/-- Sequences agree if they do element by element. -/
theorem isEqv_eq_true {α : Type} {r : α → α → Bool} {P : α → Prop} {u : α → α}
    (agrees : ∀ a b, r a b = true ↔ P a ∧ u a = u b) {l l' : List α} :
    l.isEqv l' r = true ↔ (∀ a ∈ l, P a) ∧ l.map u = l'.map u := by
  induction l generalizing l' with
  | nil => cases l' <;> simp [List.isEqv]
  | cons a l ih =>
    cases l' with
    | nil => simp [List.isEqv]
    | cons b l' =>
      rw [List.isEqv, Bool.and_eq_true, agrees, ih]
      simp only [List.forall_mem_cons, List.map_cons, List.cons.injEq]
      exact and_and_and_comm

/-- No constant is NaN. -/
def FileBody.Numeric (b : FileBody) : Prop := ∀ i ∈ b.code, ¬ i.IsNaN

/-- The body without the signs of zeros. -/
def FileBody.unsigned (b : FileBody) : FileBody :=
  { b with code := b.code.map Instruction.unsigned }

theorem FileBody.agrees_eq_true {a b : FileBody} : FileBody.agrees a b = true ↔
    FileBody.Numeric a ∧ FileBody.unsigned a = FileBody.unsigned b := by
  have code : a.code.isEqv b.code Instruction.agrees = true ↔ (∀ i ∈ a.code, ¬ i.IsNaN) ∧
      a.code.map Instruction.unsigned = b.code.map Instruction.unsigned :=
    isEqv_eq_true (fun i j => Instruction.agrees_eq_true (i := i) (j := j))
  rw [FileBody.agrees, Bool.and_eq_true, decide_eq_true_iff, code, and_assoc]
  refine and_congr_right fun _ => ?_
  cases a
  cases b
  simp only [FileBody.unsigned, Body.mk.injEq]
  constructor
  · rintro ⟨code, maxStack, initLocals, locals, -, ranges⟩
    exact ⟨maxStack, initLocals, locals, code, ranges⟩
  · rintro ⟨maxStack, initLocals, locals, code, ranges⟩
    exact ⟨code, maxStack, initLocals, locals, trivial, ranges⟩

/-- No constant in the method is NaN. -/
def Method.Numeric (d : Method FileBody) : Prop := ∀ b, d.body = some b → FileBody.Numeric b

/-- The method without the signs of zeros. -/
def Method.unsigned (d : Method FileBody) : Method FileBody :=
  { d with body := d.body.map FileBody.unsigned }

theorem Method.agrees_eq_true {a b : Method FileBody} :
    a.agrees b = true ↔ a.Numeric ∧ a.unsigned = b.unsigned := by
  obtain ⟨owner, name, flags, signature, body⟩ := a
  obtain ⟨owner', name', flags', signature', body'⟩ := b
  rw [Method.agrees, Bool.and_eq_true, decide_eq_true_iff]
  cases body with
  | none => cases body' <;> simp [Method.Numeric, Method.unsigned]
  | some x =>
    cases body' with
    | none => simp [Method.unsigned]
    | some y =>
      simp only [Method.Numeric, Method.unsigned, FileBody.agrees_eq_true, Method.mk.injEq,
        Option.some.injEq, forall_eq', Option.map_some, and_true]
      constructor
      · rintro ⟨⟨owners, names, flags, signatures⟩, numeric, bodies⟩
        exact ⟨numeric, owners, names, flags, signatures, bodies⟩
      · rintro ⟨numeric, owners, names, flags, signatures, bodies⟩
        exact ⟨⟨owners, names, flags, signatures⟩, numeric, bodies⟩

namespace ModuleFile

variable {f g : ModuleFile}

/-- No constant in the file is NaN. -/
def Numeric (f : ModuleFile) : Prop := ∀ d ∈ f.methods, d.Numeric

/-- The file without the signs of zeros. -/
def unsigned (f : ModuleFile) : ModuleFile := { f with methods := f.methods.map Method.unsigned }

/-- Files agree if no constant of the first is NaN and they are equal but for the signs of zeros. -/
theorem agrees_eq_true : f.agrees g = true ↔ f.Numeric ∧ f.unsigned = g.unsigned := by
  have methods : f.methods.toList.isEqv g.methods.toList Method.agrees = true ↔
      (∀ d ∈ f.methods.toList, d.Numeric) ∧
        f.methods.toList.map Method.unsigned = g.methods.toList.map Method.unsigned :=
    isEqv_eq_true (fun a b => Method.agrees_eq_true (a := a) (b := b))
  rw [agrees, Bool.and_eq_true, decide_eq_true_iff, ← Array.isEqv_toList, methods, and_assoc]
  refine and_congr (by simp [Numeric]) ?_
  rw [← Array.toList_map, ← Array.toList_map, Array.toList_inj]
  obtain ⟨⟨name, types, fields, methods⟩, version⟩ := f
  obtain ⟨⟨name', types', fields', methods'⟩, version'⟩ := g
  simp only [unsigned, mk.injEq, Tables.mk.injEq]
  constructor
  · rintro ⟨methods, ⟨names, types, fields, -⟩, versions⟩
    exact ⟨⟨names, types, fields, methods⟩, versions⟩
  · rintro ⟨⟨names, types, fields, methods⟩, versions⟩
    exact ⟨methods, ⟨names, types, fields, trivial⟩, versions⟩

theorem agrees_self : f.agrees f = true ↔ f.Numeric := by
  rw [agrees_eq_true, and_iff_left rfl]

/-- A file that was written is read back, and agrees with what is read back unless there is NaN. -/
theorem agrees_of_ofBytes (h : f.Writable) :
    ∃ g, ofBytes f.encode = .ok g ∧ (g.agrees f = true ↔ f.Numeric) := by
  have read : ofBytes f.encode = .ok f := by
    rw [ofBytes_eq_ok, decode_eq_ok, List.append_nil]
    exact ⟨h, rfl⟩
  exact ⟨f, read, agrees_self⟩

end ModuleFile

end Graft
