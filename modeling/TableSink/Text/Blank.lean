/-!
# Blank characters

The characters with the Unicode property `White_Space`. A text of nothing but these counts as
empty wherever the library asks whether a line or a setting holds anything.
-/

namespace TableSink.Text

/-- The code points with the property `White_Space`, as closed ranges in increasing order. -/
def blankRanges : List (Nat × Nat) :=
  [(0x09, 0x0d), (0x20, 0x20), (0x85, 0x85), (0xa0, 0xa0), (0x1680, 0x1680), (0x2000, 0x200a),
    (0x2028, 0x2029), (0x202f, 0x202f), (0x205f, 0x205f), (0x3000, 0x3000)]

/-- Whether a character separates words without showing. -/
def isBlank (c : Char) : Bool :=
  blankRanges.any fun r ↦ r.1 ≤ c.toNat && c.toNat ≤ r.2

/-- Whether nothing is left of a text once the blank characters are taken away. -/
def allBlank (s : String) : Bool := s.toList.all isBlank

example : blankRanges.Pairwise fun a b ↦ a.2 < b.1 := by decide

example : (blankRanges.map fun r ↦ r.2 + 1 - r.1).sum = 25 := by decide

end TableSink.Text
