/-!
# Ranges of code points

A property of characters is given by the code points that have it, as a table of ranges in
ascending order.  `inRanges` looks a code point up by bisection.
-/

namespace Ivy.Unicode

/-- A table of ranges of code points, each with its first and its last, in ascending order. -/
abbrev Ranges := Array (Nat × Nat)

/-- Whether `c` lies in one of the ranges from the `lo`-th up to the `hi`-th. -/
def inRangesBetween (table : Ranges) (c lo hi : Nat) : Bool :=
  if lo < hi then
    let mid := (lo + hi) / 2
    match table[mid]? with
    | none => false
    | some (first, last) =>
      if c < first then inRangesBetween table c lo mid
      else if last < c then inRangesBetween table c (mid + 1) hi
      else true
  else false
termination_by hi - lo

/-- Whether `c` lies in one of the ranges. -/
def inRanges (table : Ranges) (c : Nat) : Bool := inRangesBetween table c 0 table.size

end Ivy.Unicode
