import Cohort.Error

/-!
# Cuts: dividing the range of a hash

Ascending fractions of the hash range `0 .. 2 ^ 64` cut it into one more bucket than there are
fractions: a hash lies in the bucket numbered by how many cuts are at or below it. Cuts are the
exact floors of the fractions times `2 ^ 64`.
-/

namespace Cohort

/-- Checks fractions from position `i` on, given the one before. -/
def checkAscending (i : Nat) (previous : Option Binary64) :
    List Binary64 → Except Error Unit
  | [] => .ok ()
  | p :: rest => do
    require p.inUnitInterval (.percentageRange p i)
    require (!previous.any (p.lt ·)) .percentageOrder
    checkAscending (i + 1) (some p) rest

/-- There must be one more result group than fractions, and the fractions must ascend within
`0 .. 1`. -/
def checkFractions (fractions : List Binary64) (results : List Nat) : Except Error Unit := do
  require (fractions.length + 1 = results.length)
    (.percentageCount fractions.length results.length)
  checkAscending 0 none fractions

/-- The cuts of the hash range. -/
structure HashCuts where
  cuts : Array Nat
  deriving Repr

namespace HashCuts

def ofFractions (fractions : List Binary64) : HashCuts :=
  ⟨(fractions.map Binary64.timesTwoPow64).toArray⟩

def bucketCount (c : HashCuts) : Nat := c.cuts.size + 1

/-- Halves the `size` cuts from `base` on, keeping the half that holds the last cut at or below
`hash`. -/
def bisect (cuts : Array Nat) (hash base size : Nat) : Nat :=
  if 1 < size then
    let half := size / 2
    let base := if cuts.getD (base + half) 0 ≤ hash then base + half else base
    bisect cuts hash base (size - half)
  else if cuts.getD base 0 ≤ hash then base + 1
  else base
termination_by size

/-- The bucket of `hash`: the number of cuts at or below it. -/
def bucketOf (c : HashCuts) (hash : Nat) : Nat :=
  if c.cuts.isEmpty then 0 else bisect c.cuts hash 0 c.cuts.size

end HashCuts

end Cohort
