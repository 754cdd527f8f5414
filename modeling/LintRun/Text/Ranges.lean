/-!
# Tables of character ranges

Classes of characters that no short rule describes are kept as ranges of code points.
-/
namespace LintRun.Text

/-- Whether one of the ranges, ends included, holds the number. -/
def inRanges (ranges : Array (Nat × Nat)) (n : Nat) : Bool :=
  ranges.any fun (low, high) => low ≤ n && n ≤ high

end LintRun.Text
