/-!
# Sets of characters as code point ranges
-/

namespace Phrasebook.Text

/-- A set of characters, given as closed code point ranges in increasing order. -/
abbrev Ranges := List (Nat × Nat)

/-- The code point `n` lies in one of the ranges. The search ends at the first range above `n`. -/
def Ranges.holds (n : Nat) : Ranges → Bool
  | [] => false
  | (lo, hi) :: rest => if n < lo then false else n ≤ hi || Ranges.holds n rest

/-- The character `c` lies in one of the ranges. -/
def Ranges.covers (ranges : Ranges) (c : Char) : Bool :=
  ranges.holds c.toNat

end Phrasebook.Text
