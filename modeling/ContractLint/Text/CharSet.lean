/-
# Sets of characters given by their boundaries

A character class of Unicode is a union of a few hundred code point intervals.  `CharSet` keeps
the points where membership CHANGES, in increasing order: the set starts outside at code point
zero, and every boundary flips it.  A code point is therefore a member exactly when an odd number
of boundaries is at or below it.
-/

namespace ContractLint.Text

/-- A set of code points, as the increasing list of the points at which membership flips. -/
structure CharSet where
  bounds : List Nat

namespace CharSet

/-- Whether the code point `n` lies in the set: an odd number of boundaries is at most `n`. -/
def containsCode (s : CharSet) (n : Nat) : Bool :=
  (s.bounds.takeWhile (· ≤ n)).length % 2 == 1

/-- Whether the character `c` lies in the set. -/
def contains (s : CharSet) (c : Char) : Bool :=
  s.containsCode c.toNat

end CharSet

end ContractLint.Text
