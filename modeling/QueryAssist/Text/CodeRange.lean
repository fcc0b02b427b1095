/-!
# Ranges of code points

Character classes are given as lists of inclusive ranges of code points.
-/

namespace QueryAssist.Text

/-- Whether some range of `ranges` holds `code`. -/
def inRanges (ranges : List (Nat × Nat)) (code : Nat) : Bool :=
  ranges.any fun (low, high) => low ≤ code && code ≤ high

/-- A range holds its first and its last code point and all between. -/
theorem inRanges_iff {ranges : List (Nat × Nat)} {code : Nat} :
    inRanges ranges code = true ↔ ∃ r ∈ ranges, r.1 ≤ code ∧ code ≤ r.2 := by
  simp [inRanges]

end QueryAssist.Text
