/-!
Classes of characters as ranges of code points, both ends included.
-/

namespace AgentAssembly.Text

abbrev Ranges := List (Nat × Nat)

def Ranges.holds (ranges : Ranges) (c : Char) : Bool :=
  ranges.any fun (low, high) => low ≤ c.toNat && c.toNat ≤ high

end AgentAssembly.Text
