/-!
# Sets of code points as ascending ranges

* `inRanges` -- membership; the search ends at the first range that begins past the code point.
-/

namespace LinkPane.Text

/-- Whether `n` lies in one of the ranges, which are ascending and hold both their ends. -/
def inRanges : List (Nat × Nat) → Nat → Bool
  | [], _ => false
  | (low, high) :: ranges, n => low ≤ n && (n ≤ high || inRanges ranges n)

@[simp] theorem inRanges_nil (n : Nat) : inRanges [] n = false := rfl

theorem inRanges_cons (low high : Nat) (ranges : List (Nat × Nat)) (n : Nat) :
    inRanges ((low, high) :: ranges) n = (low ≤ n && (n ≤ high || inRanges ranges n)) := rfl

end LinkPane.Text
