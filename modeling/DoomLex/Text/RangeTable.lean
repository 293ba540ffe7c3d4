/-
Sets of characters given by ranges of code points, as the Unicode standard lists its properties.
Membership is decided by halving, which is right for ranges in ascending order.
-/
import DoomLex.Bisect

namespace DoomLex.Text

/-- A set of code points as ranges in ascending order, the ends included. -/
structure RangeTable where
  ranges : Array (Nat × Nat)

namespace RangeTable

/-- Looks for the first range that does not end before the character. -/
def contains (table : RangeTable) (c : Char) : Bool :=
  let i := bisect (fun i => table.ranges[i]?.any (·.2 < c.toNat)) 0 table.ranges.size
  table.ranges[i]?.any (·.1 ≤ c.toNat)

end RangeTable

end DoomLex.Text
