/-!
# Bisection

The first index at which a test fails, found by halving the range that is left. Where the test
holds on a first part of the array and nowhere behind it, this is the length of that part; on other
arrays the answer depends on the places that are looked at, and these are fixed here: the middle
`base + size / 2` of the range, which keeps the half it stands in.
-/

namespace EvmObject

/-- Narrows the range of `size` elements from `base` on to its last candidate. -/
def bisect {α : Type} (test : α → Bool) (values : Array α) (base size : Nat) : Nat :=
  if size ≤ 1 then base
  else
    let half := size / 2
    let middle := base + half
    bisect test values (if values[middle]?.any test then middle else base) (size - half)
termination_by size
decreasing_by omega

/-- The number of elements before the first that fails the test, on a partitioned array. -/
def partitionPoint {α : Type} (test : α → Bool) (values : Array α) : Nat :=
  let last := bisect test values 0 values.size
  if values[last]?.any test then last + 1 else last

end EvmObject
