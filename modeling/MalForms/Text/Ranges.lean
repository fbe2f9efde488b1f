/-!
# Sets of numbers as ranges

A set of code points is written as the list of its maximal ranges, each with its first and last number.
-/

namespace MalForms

/-- The first and the last number of each range of a set. -/
abbrev Ranges := List (Nat × Nat)

namespace Ranges

def contains (rs : Ranges) (n : Nat) : Bool := rs.any fun r => r.1 ≤ n && n ≤ r.2

theorem contains_iff (rs : Ranges) (n : Nat) : rs.contains n = true ↔ ∃ r ∈ rs, r.1 ≤ n ∧ n ≤ r.2 := by
  simp [contains]

end Ranges

end MalForms
