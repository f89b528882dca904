/-! Sets of code points, given by the closed intervals they consist of. -/
namespace MailRoom

/-- Closed intervals of code points; a table lists them in ascending order. -/
abbrev Ranges := List (Nat × Nat)

def Ranges.covers (ranges : Ranges) (code : Nat) : Bool :=
  ranges.any fun (low, high) => low ≤ code && code ≤ high

theorem Ranges.covers_iff (ranges : Ranges) (code : Nat) :
    ranges.covers code = true ↔ ∃ range ∈ ranges, range.1 ≤ code ∧ code ≤ range.2 := by
  simp [Ranges.covers, List.any_eq_true]

end MailRoom
