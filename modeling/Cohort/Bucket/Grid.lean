import Cohort.Bucket.Interval

/-!
# Grids: buckets of two values at once

An axis numbers the intervals of its range from 1; index 0 lies below the range and the last index
above it. The cells of a grid are numbered from 1, row by row.
-/

namespace Cohort

structure Axis where
  min : Int
  max : Int
  width : Int
  /-- Number of indexes, both gutters included. -/
  count : Nat
  deriving DecidableEq, Repr

namespace Axis

def make (name : String) (min max width : Int) : Except Error Axis := do
  requireRange name min max width
  let count := intervalCount min max width + 2
  require (count ≤ maxId) (.tooManyBuckets name)
  return ⟨min, max, width, count⟩

def index (a : Axis) (value : Int) : Nat :=
  if value < a.min then 0
  else if a.max ≤ value then a.count - 1
  else ((value - a.min) / a.width).toNat + 1

/-- The index of every value from `lo` to `hi`, if they share one. -/
def common? (a : Axis) (lo hi : Int) : Option Nat :=
  if hi < lo then none
  else if (a.min ≤ lo && hi < a.max) || hi < a.min || a.max ≤ lo then
    if a.index lo = a.index hi then some (a.index lo) else none
  else none

end Axis

structure Grid where
  x : Axis
  y : Axis
  deriving DecidableEq, Repr

namespace Grid

/-- Number of cells. -/
def total (g : Grid) : Nat := g.x.count * g.y.count

/-- The largest cell, which must be a group id. -/
def maxGroup (g : Grid) : Except Error Nat := do
  require (g.total ≤ maxId) (.gridTooLarge g.total)
  return g.total

/-- The cell at a pair of indexes. -/
def cellAt? (g : Grid) (x y : Nat) : Option Nat := asId? (y * g.x.count + x + 1)

/-- The cell of a pair of values. -/
def cell? (g : Grid) (x y : Int) : Option Nat := g.cellAt? (g.x.index x) (g.y.index y)

end Grid

end Cohort
