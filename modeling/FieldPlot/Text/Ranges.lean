/-!
Closed ranges of code points, the form in which the character classes are tabulated. A class is
a sorted array of disjoint ranges, so membership is one pass over it.
-/

namespace FieldPlot.Text

/-- Whether `c` lies in one of the closed ranges of `table`. -/
def inRanges (table : Array (Nat × Nat)) (c : Char) : Bool :=
  table.any fun (lo, hi) => lo ≤ c.toNat && c.toNat ≤ hi

theorem inRanges_eq_any (table : Array (Nat × Nat)) (c : Char) :
    inRanges table c = table.toList.any fun (lo, hi) => lo ≤ c.toNat && c.toNat ≤ hi := by
  rw [inRanges, ← Array.any_toList]

end FieldPlot.Text
