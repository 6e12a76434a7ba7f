/-!
# Ranges of code points

A character class is kept as a list of inclusive ranges of code points, ascending and apart from
one another. Membership is a question about the number of a character only.
-/

namespace Graft.Text

/-- A character class: inclusive ranges of code points. -/
abbrev CodeRanges := List (Nat × Nat)

/-- Is the character in one of the ranges? -/
def CodeRanges.has (ranges : CodeRanges) (c : Char) : Bool :=
  ranges.any fun (low, high) => low ≤ c.toNat && c.toNat ≤ high

theorem CodeRanges.has_iff {ranges : CodeRanges} {c : Char} :
    ranges.has c = true ↔ ∃ r ∈ ranges, r.1 ≤ c.toNat ∧ c.toNat ≤ r.2 := by
  simp [CodeRanges.has, List.any_eq_true]

end Graft.Text
