/-!
Sets of characters given as ascending ranges of code points.
-/
namespace Comprehension.Text

/-- Membership in a list of ranges. The ranges ascend, so the search stops at the first that
starts above the code point. -/
def inRanges : List (Nat × Nat) → Nat → Bool
  | [], _ => false
  | (first, last) :: rest, n =>
    if n < first then false else if n ≤ last then true else inRanges rest n

@[simp] theorem inRanges_nil (n : Nat) : inRanges [] n = false := rfl

end Comprehension.Text
