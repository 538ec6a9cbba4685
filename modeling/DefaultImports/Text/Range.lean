/-! Sets of code points as increasing lists of closed ranges. -/
namespace DefaultImports.Text

/-- Membership in an increasing list of closed ranges; the search stops at the first range
that starts above `n`. -/
def inRanges (n : Nat) : List (Nat × Nat) → Bool
  | [] => false
  | (lo, hi) :: rest => lo ≤ n && (n ≤ hi || inRanges n rest)

end DefaultImports.Text
