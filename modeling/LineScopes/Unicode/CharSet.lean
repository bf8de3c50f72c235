/-!
# Sets of characters

This module represents a set of characters by the points where membership changes, so that a
property published as a few hundred ranges is looked up by bisection.

**Main definitions.** `CharSet`, `CharSet.contains`.
-/

namespace LineScopes
namespace Unicode

/-- A set of characters. Membership starts at "outside" and changes at every bound; the bounds
increase. -/
structure CharSet where
  bounds : Array Nat
deriving Repr

namespace CharSet

/-- The first index in `[lo, hi)` whose bound is above `n`, or `hi`. -/
def firstAbove
    (bounds : Array Nat)
    (n lo hi : Nat) : Nat :=
  if lo < hi then
    let mid := (lo + hi) / 2
    if bounds.getD mid 0 ≤ n then
      firstAbove bounds n (mid + 1) hi
    else
      firstAbove bounds n lo mid
  else
    lo
termination_by hi - lo

/-- A code point is inside when an odd number of bounds does not exceed it. -/
def containsCode
    (s : CharSet)
    (n : Nat) : Bool :=
  firstAbove s.bounds n 0 s.bounds.size % 2 == 1

/-- Whether a character is in the set. -/
def contains
    (s : CharSet)
    (c : Char) : Bool :=
  s.containsCode c.toNat

end CharSet

end Unicode
end LineScopes
