/-! Sets of characters, as ranges of their code points. -/
namespace Bindery.Text

/-- Ranges of code points, each with its first and its last. -/
abbrev Ranges : Type := List (Nat × Nat)

/-- Whether a character is in one of the ranges. -/
def Ranges.has (ranges : Ranges) (c : Char) : Bool :=
  ranges.any fun r => decide (r.1 ≤ c.toNat) && decide (c.toNat ≤ r.2)

end Bindery.Text
