import Graft.Listing
import Graft.Proofs.Likeness

/-!
# Listings go by position

The listing of a method calls instructions by their positions, so it shows nothing of the handles.
Bodies that are seen as the same have the same listing, whatever their handles are.
-/

namespace Graft

namespace Module

variable {m m' : Module} {k : MethodId} {b b' : LiveBody} {i : Instruction InsnId}
  {r : ExceptionRange InsnId} {id : InsnId} {p : Nat} {label label' : InsnId → String}
  {f : InsnId → InsnId}

/-! ## Labels -/

theorem operandText_congr (same : ∀ l ∈ i.targets, label l = label' l) :
    m.operandText label i = m.operandText label' i := by
  cases i
  case switch targets =>
    have labels : targets.map label = targets.map label' := List.map_congr_left same
    rw [operandText, operandText, labels]
  case br target | brIf _ target | brCmp _ target | leave target =>
    exact same target List.mem_cons_self
  all_goals rfl

theorem operandText_mapLabels :
    m.operandText label (i.mapLabels f) = m.operandText (label ∘ f) i := by
  cases i
  case switch targets =>
    have labels : (targets.map f).map label = targets.map (label ∘ f) := List.map_map
    rw [Instruction.mapLabels, operandText, operandText, labels]
  all_goals rfl

theorem renderType_of_declarations (same : m'.declarations = m.declarations) :
    m'.renderType = m.renderType :=
  Tables.renderType_of_outline (Tables.outline_of_declarations same)

theorem operandText_of_declarations (same : m'.declarations = m.declarations) :
    m'.operandText label i = m.operandText label i := by
  have outline := Tables.outline_of_declarations same
  cases i with
  | field access id => exact Tables.fieldName_of_outline outline id
  | call form id => exact Tables.methodName_of_outline outline
  | typed op s =>
    exact congrFun (renderType_of_declarations same) s
  | _ => rfl

theorem rangeLine_congr (same : ∀ l ∈ r.markers, label l = label' l) :
    m.rangeLine label r = m.rangeLine label' r := by
  obtain ⟨kind, tryStart, tryEnd, handlerStart, handlerEnd⟩ := r
  obtain ⟨hts, hte, hhs, hhe, hkind⟩ := ExceptionRange.forall_mem_markers.mp same
  simp only at hts hte hhs hhe hkind
  cases kind with
  | filter start =>
    have hstart := hkind start List.mem_cons_self
    -- The equation Lean would make for a text this long takes many seconds; `delta` needs none.
    delta rangeLine
    simp only [hts, hte, hhs, hhe, hstart]
  | _ =>
    delta rangeLine
    simp only [hts, hte, hhs, hhe]

theorem rangeLine_mapLabels : m.rangeLine label (r.mapLabels f) = m.rangeLine (label ∘ f) r := by
  obtain ⟨kind, _, _, _, _⟩ := r
  cases kind <;> rfl

theorem rangeLine_of_declarations (same : m'.declarations = m.declarations) :
    m'.rangeLine label r = m.rangeLine label r := by
  delta rangeLine
  rw [renderType_of_declarations same]

/-! ## Bodies -/

/-- A handle of which only the position matters. -/
def placeholder (p : UInt32) : InsnId := ⟨p⟩

/-- The label of a handle that stands for a position. -/
def placeText (id : InsnId) : String := labelText id.index

/-- The line of an instruction with positions for labels. -/
def positionLine (m : Module) (p : Nat) (i : Instruction UInt32) : String :=
  let operand := m.operandText placeText (i.mapLabels placeholder)
  let text := if operand = "" then i.mnemonic else i.mnemonic ++ " " ++ operand
  "  " ++ labelText p ++ ": " ++ text ++ "\n"

/-- A handle of the body is shown as its position. -/
theorem handleText_eq (distinct : b.code.Nodup) (hid : id ∈ b.code) :
    handleText (.ofList b.code) id = placeText (placeholder (b.position id)) := by
  rw [handleText, Positions.find?_eq distinct, if_pos hid]
  show labelText (b.code.idxOf id) = labelText (b.position id).toNat
  rw [LiveBody.toNat_position distinct hid]

theorem instructionLine_eq (h : b.Readable m.arena) (hid : id ∈ b.code) :
    m.instructionLine (handleText (.ofList b.code)) p id =
      m.positionLine p (b.viewInstruction m.arena id) := by
  obtain ⟨i, hi⟩ := h.stored id hid
  have operand : m.operandText (handleText (.ofList b.code)) i =
      m.operandText placeText ((b.viewInstruction m.arena id).mapLabels placeholder) := by
    rw [LiveBody.viewInstruction_eq hi, Instruction.mapLabels_mapLabels, operandText_mapLabels]
    exact operandText_congr fun l hl => handleText_eq h.nodup (h.targets id hid i hi l hl)
  have mnemonic : (b.viewInstruction m.arena id).mnemonic = i.mnemonic := by
    rw [LiveBody.viewInstruction_eq hi, Instruction.mnemonic_mapLabels]
  simp only [instructionLine, positionLine, instruction?, hi, operand, mnemonic]

theorem rangeLine_eq (h : b.Readable m.arena) (hr : r ∈ b.ranges) :
    m.rangeLine (handleText (.ofList b.code)) r =
      m.rangeLine placeText ((r.mapLabels b.position).mapLabels placeholder) := by
  rw [ExceptionRange.mapLabels_mapLabels, rangeLine_mapLabels]
  exact rangeLine_congr fun l hl => handleText_eq h.nodup (h.markers r hr l hl)

theorem instructionLines_eq (h : b.Readable m.arena) :
    (b.code.zipIdx.map fun (id, p) => m.instructionLine (handleText (.ofList b.code)) p id) =
      (b.view m.arena).code.zipIdx.map fun (i, p) => m.positionLine p i := by
  rw [LiveBody.view, List.zipIdx_map, List.map_map]
  exact List.map_congr_left fun placed hid =>
    instructionLine_eq h (List.fst_mem_of_mem_zipIdx hid)

/-- The lines of a body, read off its view. The types of locals have nothing to do with handles. -/
theorem bodyText_eq (h : b.Readable m.arena) :
    m.bodyText b =
      "  .maxstack " ++ toString b.maxStack.toNat ++ "\n" ++ m.localsLine b
        ++ String.join ((b.view m.arena).ranges.map fun r =>
          m.rangeLine placeText (r.mapLabels placeholder))
        ++ String.join ((b.view m.arena).code.zipIdx.map fun (i, p) => m.positionLine p i) := by
  have ranges : b.ranges.map (m.rangeLine (handleText (.ofList b.code))) =
      (b.view m.arena).ranges.map fun r => m.rangeLine placeText (r.mapLabels placeholder) := by
    rw [LiveBody.view, List.map_map]
    exact List.map_congr_left fun r hr => rangeLine_eq h hr
  delta bodyText
  simp only [ranges, instructionLines_eq h]

/-! ## Methods -/

theorem Alike.bodyText (h : Alike k m m' b b') : m'.bodyText b' = m.bodyText b := by
  have locals : m'.localsLine b' = m.localsLine b := by
    rw [localsLine, localsLine, h.locals, h.initLocals, renderType_of_declarations h.declarations]
  have lines : (fun r : ExceptionRange UInt32 =>
      m'.rangeLine placeText (r.mapLabels placeholder)) =
        fun r => m.rangeLine placeText (r.mapLabels placeholder) :=
    funext fun _ => rangeLine_of_declarations h.declarations
  have code : m'.positionLine = m.positionLine := funext₂ fun p i => by
    rw [positionLine, positionLine, operandText_of_declarations h.declarations]
  rw [bodyText_eq h.readable', bodyText_eq h.readable, h.view, h.maxStack, locals, lines, code]

theorem signatureLine_of_declarations {d d' : Method LiveBody}
    (same : m'.declarations = m.declarations) (head : d'.head = d.head) :
    m'.signatureLine k d' = m.signatureLine k d := by
  have name : m'.methodName k = m.methodName k :=
    Tables.methodName_of_outline (Tables.outline_of_declarations same)
  rw [signatureLine, signatureLine, name, renderType_of_declarations same,
    Method.flags_of_head head, Method.signature_of_head head]

/-- A method is listed in the same way in modules that declare the same and see its body as the
same. -/
theorem describe_eq (same : m'.declarations = m.declarations)
    (bodies : (m.body? k = none ∧ m'.body? k = none) ∨ ∃ b b', Alike k m m' b b') :
    m'.describe k = m.describe k := by
  have heads := Tables.head_of_declarations same k
  rw [describe, describe]
  cases hd : m.method? k with
  | none =>
    rw [hd, Option.map_none, Option.map_eq_none_iff] at heads
    rw [heads]
  | some d =>
    rw [hd, Option.map_some] at heads
    obtain ⟨d', hd', head⟩ := Option.map_eq_some_iff.mp heads
    have body : d.body = m.body? k := (body?_of_method? hd).symm
    have body' : d'.body = m'.body? k := (body?_of_method? hd').symm
    simp only [hd', signatureLine_of_declarations same head, body, body']
    rcases bodies with ⟨none, none'⟩ | ⟨b, b', alike⟩
    · rw [none, none']
    · simp only [alike.body, alike.body', alike.bodyText]

end Module

end Graft
