/-!
# Tables of code points

A set of characters is given as a list of ranges of code points, both ends included.
-/

namespace GrammarRules.Text

abbrev Ranges := List (Nat × Nat)

def Ranges.contains (ranges : Ranges) (c : Char) : Bool :=
  ranges.any fun (low, high) => low ≤ c.toNat && c.toNat ≤ high

end GrammarRules.Text
