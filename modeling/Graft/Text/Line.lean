/-!
# Lines

A line ends at a line feed, and one carriage return right before that line feed belongs to the
line's end. What follows the last line feed is a line of its own unless it is empty.
-/

namespace Graft.Text

/-- Put a character in front of the first line. -/
def consFirst (c : Char) : List (List Char) → List (List Char)
  | [] => [[c]]
  | line :: rest => (c :: line) :: rest

/-- The lines of a text, without their ends. -/
def lines : List Char → List (List Char)
  | [] => []
  | '\n' :: rest => [] :: lines rest
  | '\r' :: '\n' :: rest => [] :: lines rest
  | c :: rest => consFirst c (lines rest)

/-- The parts of a text between the places where `separator` stands; at least one. -/
def pieces (separator : Char) : List Char → List (List Char)
  | [] => [[]]
  | c :: rest =>
    if c = separator then [] :: pieces separator rest else consFirst c (pieces separator rest)

theorem pieces_ne_nil (separator : Char) (cs : List Char) : pieces separator cs ≠ [] := by
  cases cs with
  | nil => simp [pieces]
  | cons c rest =>
    unfold pieces
    split
    · simp
    · cases pieces separator rest <;> simp [consFirst]

theorem consFirst_append {c : Char} {parts : List (List Char)} (filled : parts ≠ [])
    (rest : List (List Char)) : consFirst c (parts ++ rest) = consFirst c parts ++ rest := by
  obtain ⟨part, parts, rfl⟩ := List.exists_cons_of_ne_nil filled
  rfl

/-- A separator ends the pieces of what stands in front of it. -/
theorem pieces_append_cons (separator : Char) (cs rest : List Char) :
    pieces separator (cs ++ separator :: rest) =
      pieces separator cs ++ pieces separator rest := by
  induction cs with
  | nil => simp [pieces]
  | cons c cs ih =>
    rw [List.cons_append, pieces, pieces, ih]
    split
    · rfl
    · exact consFirst_append (pieces_ne_nil separator cs) _

end Graft.Text
