/-! Sets of characters, listed as ascending ranges of code points. -/
namespace Gazetteer.Text

/-- Ranges of code points, both ends included. -/
abbrev Ranges := List (Nat × Nat)

def Ranges.contains (rs : Ranges) (c : Char) : Bool :=
  rs.any fun r => r.1 ≤ c.toNat ∧ c.toNat ≤ r.2

end Gazetteer.Text
