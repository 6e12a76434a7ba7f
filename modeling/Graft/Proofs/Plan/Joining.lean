import Graft.Proofs.Plan.Words

/-!
# Plans are put together line by line

A line feed between two plans ends the last line of the first one, if it has not ended yet; of the
second one it changes nothing but the numbers of the lines. So two plans joined by a line feed are
read as the operations of the one and then those of the other, and the first line that cannot be
read is the same.
-/

namespace Graft

/-! ## Lines -/

namespace Text

/-- A line without the carriage return at its end, if it has one. -/
def withoutReturn : List Char → List Char
  | [] => []
  | ['\r'] => []
  | c :: rest => c :: withoutReturn rest

/-- The lines in the pieces between line feeds. All but the last end at a line feed; the last is no
line if it is empty. -/
def linesOf : List (List Char) → List (List Char)
  | [] => []
  | [last] => if last = [] then [] else [last]
  | piece :: next :: rest => withoutReturn piece :: linesOf (next :: rest)

variable {cs : List Char} {separator : Char}

theorem withoutReturn_cons {c : Char} (h : c = '\r' → cs ≠ []) :
    withoutReturn (c :: cs) = c :: withoutReturn cs := by
  rw [withoutReturn]
  rintro rfl rfl
  exact h rfl rfl

/-- What is cut off is blank. -/
theorem exists_withoutReturn (cs : List Char) :
    ∃ gap, (∀ c ∈ gap, isBlank c = true) ∧ withoutReturn cs ++ gap = cs := by
  fun_induction withoutReturn cs with
  | case1 => exact ⟨[], List.forall_mem_nil _, rfl⟩
  | case2 => exact ⟨['\r'], List.forall_mem_singleton.mpr (by decide), rfl⟩
  | case3 c rest _ ih =>
    obtain ⟨gap, blank, whole⟩ := ih
    exact ⟨gap, blank, by rw [List.cons_append, whole]⟩

/-- A text starts with the separator if its first piece is empty and not the last. -/
theorem exists_eq_cons_of_pieces {next : List Char} {rest : List (List Char)}
    (h : pieces separator cs = [] :: next :: rest) : ∃ cs', cs = separator :: cs' := by
  cases cs with
  | nil => cases h
  | cons c cs =>
    rw [pieces] at h
    split at h
    · rename_i same
      exact ⟨cs, by rw [same]⟩
    · obtain ⟨part, parts, split⟩ := List.exists_cons_of_ne_nil (pieces_ne_nil separator cs)
      rw [split] at h
      cases h

theorem length_pieces (separator : Char) (cs : List Char) :
    (pieces separator cs).length = cs.count separator + 1 := by
  induction cs with
  | nil => rfl
  | cons c cs ih =>
    rw [pieces]
    split
    · rename_i same
      rw [same, List.length_cons, ih, List.count_cons_self]
    · rename_i other
      obtain ⟨part, parts, split⟩ := List.exists_cons_of_ne_nil (pieces_ne_nil separator cs)
      rw [List.count_cons_of_ne other, ← ih, split]
      rfl

/-- Lines are cut at the line feeds, and only then are the returns in front of these dropped. -/
theorem lines_eq (cs : List Char) : lines cs = linesOf (pieces '\n' cs) := by
  fun_induction lines cs with
  | case1 => rfl
  | case2 rest ih =>
    obtain ⟨piece, parts, split⟩ := List.exists_cons_of_ne_nil (pieces_ne_nil '\n' rest)
    rw [ih, pieces, if_pos rfl, split]
    rfl
  | case3 rest ih =>
    obtain ⟨piece, parts, split⟩ := List.exists_cons_of_ne_nil (pieces_ne_nil '\n' rest)
    rw [ih, pieces, if_neg (by decide), pieces, if_pos rfl, split]
    rfl
  | case4 c rest noFeed noReturn ih =>
    obtain ⟨piece, parts, split⟩ := List.exists_cons_of_ne_nil (pieces_ne_nil '\n' rest)
    rw [ih, pieces, if_neg (fun same => noFeed same), split]
    cases parts with
    | nil =>
      rw [consFirst, linesOf, linesOf, if_neg (List.cons_ne_nil c piece)]
      cases piece with
      | nil => rfl
      | cons d piece => rfl
    | cons next parts =>
      -- A return would be cut off only right before a line feed.
      have kept : withoutReturn (c :: piece) = c :: withoutReturn piece := by
        refine withoutReturn_cons ?_
        rintro rfl rfl
        obtain ⟨rest', starts⟩ := exists_eq_cons_of_pieces split
        exact noReturn rest' rfl starts
      rw [consFirst, linesOf, linesOf, kept, consFirst]

/-- All lines end at a line feed if more pieces follow. -/
theorem linesOf_append {rest : List (List Char)} (filled : rest ≠ [])
    (parts : List (List Char)) :
    linesOf (parts ++ rest) = parts.map withoutReturn ++ linesOf rest := by
  induction parts with
  | nil => rfl
  | cons piece parts ih =>
    obtain ⟨next, parts', split⟩ :=
      List.exists_cons_of_ne_nil (List.append_ne_nil_of_right_ne_nil parts filled)
    rw [List.cons_append, split, linesOf, ← split, ih]
    rfl

theorem trim_withoutReturn (cs : List Char) : trim (withoutReturn cs) = trim cs := by
  obtain ⟨gap, blank, whole⟩ := exists_withoutReturn cs
  have same : trim (withoutReturn cs ++ gap) = trim (withoutReturn cs) := trim_append _ blank
  rw [← same, whole]

end Text

/-! ## Plans -/

/-- The fault as it is found so many lines later. -/
def Fault.later (count : Nat) : Fault → Fault
  | invalidPlan line flaw => invalidPlan (line + count) flaw
  | fault => fault

namespace Plan

variable {first second : List Char} {lines : List (List Char)} {fault : Fault} {number : Nat}

/-- Reading trims a line, so lines that are trimmed alike are read alike. -/
theorem readLines_congr (same : Text.trim first = Text.trim second) (number : Nat)
    (rest : List (List Char)) :
    readLines number (first :: rest) = readLines number (second :: rest) := by
  simp only [readLines, isSilent, readOperation, Reader.run, same]

/-- How the last piece is taken makes no difference: an empty line says nothing, and a return at the
end of a line is trimmed. -/
theorem readLines_linesOf (number : Nat) {parts : List (List Char)} (filled : parts ≠ []) :
    readLines number (Text.linesOf parts) = readLines number (parts.map Text.withoutReturn) := by
  fun_induction Text.linesOf parts generalizing number with
  | case1 => exact absurd rfl filled
  | case2 => rfl
  -- The last line has a return cut off on the right only.
  | case3 last _ => exact readLines_congr (Text.trim_withoutReturn last).symm number []
  | case4 piece next rest ih =>
    rw [List.map_cons, readLines, readLines, ih _ (List.cons_ne_nil next rest)]

theorem readLines_append (number : Nat) (front rest : List (List Char)) :
    readLines number (front ++ rest) = (readLines number front).bind fun operations =>
      (readLines (number + front.length) rest).map (operations ++ ·) := by
  induction front generalizing number with
  | nil =>
    show readLines number rest = (readLines number rest).map ([] ++ ·)
    cases readLines number rest with
    | error fault => rfl
    | ok operations => rfl
  | cons line front ih =>
    rw [List.cons_append, readLines, readLines, ih, List.length_cons, Nat.add_assoc,
      Nat.add_comm 1]
    split
    · rfl
    · cases readOperation line with
      | error flaw => rfl
      | ok operation =>
        cases readLines (number + 1) front with
        | error fault => rfl
        | ok operations =>
          show Except.map _ (Except.map _ _) = Except.map _ _
          cases readLines (number + (front.length + 1)) rest with
          | error fault => rfl
          | ok operations' => rfl

/-- The numbers of lines are counted on from the first. -/
theorem readLines_add (number count : Nat) (lines : List (List Char)) :
    readLines (number + count) lines = (readLines number lines).mapError (Fault.later count) := by
  induction lines generalizing number with
  | nil => rfl
  | cons line lines ih =>
    rw [readLines, readLines, Nat.add_right_comm, ih]
    split
    · rfl
    · cases readOperation line with
      | error flaw => rfl
      | ok operation =>
        cases readLines (number + 1) lines with
        | error fault => rfl
        | ok operations => rfl

theorem exists_flaw_of_readLines (h : readLines number lines = .error fault) :
    ∃ line flaw, fault = .invalidPlan line flaw := by
  induction lines generalizing number with
  | nil => cases h
  | cons line lines ih =>
    rw [readLines] at h
    split at h
    · exact ih h
    · cases read : readOperation line with
      | error flaw =>
        rw [read] at h
        cases h
        exact ⟨_, _, rfl⟩
      | ok operation =>
        rw [read] at h
        cases rest : readLines (number + 1) lines with
        | error fault' =>
          rw [rest] at h
          cases h
          exact ih rest
        | ok operations =>
          rw [rest] at h
          cases h

/-- The plan in front is read first; behind it the lines have other numbers. -/
theorem read_append (s t : String) :
    read (s ++ "\n" ++ t) = (read s).bind fun operations =>
      ((read t).mapError (Fault.later (s.toList.count '\n' + 1))).map (operations ++ ·) := by
  have filled := Text.pieces_ne_nil '\n'
  have whole : (s ++ "\n" ++ t).toList = s.toList ++ '\n' :: t.toList := by
    rw [String.toList_append, String.toList_append, List.append_assoc]
    rfl
  have front : read s =
      readLines 1 ((Text.pieces '\n' s.toList).map Text.withoutReturn) := by
    rw [read, Text.lines_eq, readLines_linesOf 1 (filled _)]
  rw [front, read, whole, Text.lines_eq, Text.pieces_append_cons, Text.linesOf_append (filled _),
    readLines_append, ← Text.lines_eq, List.length_map, Text.length_pieces, readLines_add]
  rfl

/-- Plans are put together line by line. If the first of two plans cannot be read, the same line of
the two joined by a line feed cannot, for the same reason. If both can be read, the operations of
the one come before those of the other. And if only the second cannot be read, the line to blame is
as much later as there are lines before it. -/
theorem read_join (s t : String) :
    (∀ fault, read s = .error fault → read (s ++ "\n" ++ t) = .error fault) ∧
    (∀ front back, read s = .ok front → read t = .ok back →
      read (s ++ "\n" ++ t) = .ok (front ++ back)) ∧
    (∀ front fault, read s = .ok front → read t = .error fault →
      ∃ line flaw, fault = .invalidPlan line flaw ∧
        read (s ++ "\n" ++ t) =
          .error (.invalidPlan (line + s.toList.count '\n' + 1) flaw)) := by
  rw [read_append]
  refine ⟨fun fault failed => ?_, fun front back first second => ?_,
    fun front fault first failed => ?_⟩
  · rw [failed]
    rfl
  · rw [first, second]
    rfl
  · obtain ⟨line, flaw, rfl⟩ := exists_flaw_of_readLines failed
    refine ⟨line, flaw, rfl, ?_⟩
    rw [first, failed]
    rfl

/-- Instances: a flaw in front, a return before the line feed between, and a flaw behind two line
feeds. -/
theorem read_join_sample :
    (read "pad Counter" = .error (.invalidPlan 1 (.missing "method")) ∧
      read ("pad Counter" ++ "\n" ++ "") = .error (.invalidPlan 1 (.missing "method"))) ∧
    (read "make-public Counter next\r" = .ok [.makePublic ⟨"Counter", "next"⟩] ∧
      read "# done\n" = .ok [] ∧
      read ("make-public Counter next\r" ++ "\n" ++ "# done\n") =
        .ok [.makePublic ⟨"Counter", "next"⟩]) ∧
    (read "# start\r\n" = .ok [] ∧
      read "pad Counter" = .error (.invalidPlan 1 (.missing "method")) ∧
      read ("# start\r\n" ++ "\n" ++ "pad Counter") =
        .error (.invalidPlan 3 (.missing "method"))) := by
  have flawed : read "pad Counter" = .error (.invalidPlan 1 (.missing "method")) := by
    decide +kernel
  have next : read "make-public Counter next\r" = .ok [.makePublic ⟨"Counter", "next"⟩] := by
    decide +kernel
  have done : read "# done\n" = .ok [] := by decide +kernel
  have start : read "# start\r\n" = .ok [] := by decide +kernel
  obtain ⟨line, flaw, same, later⟩ := (read_join _ _).2.2 _ _ start flawed
  cases same
  have count : "# start\r\n".toList.count '\n' = 1 := by decide +kernel
  rw [count] at later
  exact ⟨⟨flawed, (read_join _ _).1 _ flawed⟩, ⟨next, done, (read_join _ _).2.1 _ _ next done⟩,
    start, flawed, later⟩

end Plan

end Graft
