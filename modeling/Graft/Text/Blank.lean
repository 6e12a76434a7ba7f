import Graft.Text.CodeRange

/-!
# Blanks and words

What separates words on a line: the characters with the Unicode property White_Space. Trimming and
taking a word work on lists of characters, front to back.
-/

namespace Graft.Text

/-- The code points with the property White_Space. -/
def blanks : CodeRanges := [
  (0x9, 0xd), (0x20, 0x20), (0x85, 0x85), (0xa0, 0xa0), (0x1680, 0x1680), (0x2000, 0x200a),
  (0x2028, 0x2029), (0x202f, 0x202f), (0x205f, 0x205f), (0x3000, 0x3000)]

/-- Does the character separate words? -/
def isBlank (c : Char) : Bool := blanks.has c

/-- Drop the blanks in front. -/
def trimStart (cs : List Char) : List Char := cs.dropWhile isBlank

/-- Drop the blanks behind. -/
def trimEnd (cs : List Char) : List Char := (trimStart cs.reverse).reverse

/-- Drop the blanks on both sides. -/
def trim (cs : List Char) : List Char := trimEnd (trimStart cs)

/-- The first word of a text and what follows it, trimmed in front; `none` if the text is blank. -/
def nextWord? (cs : List Char) : Option (List Char × List Char) :=
  match trimStart cs with
  | [] => none
  | c :: rest =>
    let word := (c :: rest).takeWhile (! isBlank ·)
    some (word, trimStart ((c :: rest).dropWhile (! isBlank ·)))

/-- What is left after trimming in front starts with no blank. -/
theorem isBlank_of_trimStart_eq_cons {cs rest : List Char} {c : Char}
    (h : trimStart cs = c :: rest) : isBlank c = false := by
  have := List.head?_dropWhile_not isBlank cs
  rw [trimStart] at h
  simpa [h] using this

end Graft.Text
