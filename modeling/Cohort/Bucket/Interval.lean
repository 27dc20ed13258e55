import Cohort.Error
import Cohort.Word

/-!
# Interval buckets: cutting a range of values into intervals

The range `[min, max)` is cut into intervals of `width` values, numbered from 1; the last one may be
shorter. Values below and above the range have gutter buckets of their own after these, or go to
bucket 0 if there are no gutters. A label that does not fit a group id gives `none`.

`compose?` numbers the buckets of every old group one after the other.
-/

namespace Cohort

/-- Checks a range and the width of its intervals. -/
def requireRange (axis : String) (min max width : Int) : Except Error Unit := do
  require (0 < width) (.intervalNotPositive axis width)
  require (min < max) (.emptyRange axis min max)

/-- Number of intervals that `[min, max)` is cut into. -/
def intervalCount (min max width : Int) : Nat := ((max - 1 - min) / width + 1).toNat

structure IntervalBuckets where
  min : Int
  max : Int
  width : Int
  /-- Number of buckets inside the range. -/
  count : Nat
  noGutters : Bool
  deriving DecidableEq, Repr

namespace IntervalBuckets

def make (min max width : Int) (noGutters : Bool) : Except Error IntervalBuckets := do
  requireRange "metric" min max width
  let count := intervalCount min max width
  require (count ≤ maxId) (.tooManyBuckets "interval")
  return ⟨min, max, width, count, noGutters⟩

/-- Buckets per old group, gutters included. -/
def total (b : IntervalBuckets) : Nat := if b.noGutters then b.count else b.count + 2

/-- The bucket of values below the range. -/
def below? (b : IntervalBuckets) : Option Nat :=
  if b.noGutters then some 0 else asId? (b.count + 1)

/-- The bucket of values at or above the end of the range. -/
def above? (b : IntervalBuckets) : Option Nat :=
  if b.noGutters then some 0 else asId? (b.count + 2)

/-- The bucket of a value inside the range. -/
def inside (b : IntervalBuckets) (value : Int) : Nat := ((value - b.min) / b.width).toNat + 1

def bucket? (b : IntervalBuckets) (value : Int) : Option Nat :=
  if value < b.min then b.below?
  else if b.max ≤ value then b.above?
  else some (b.inside value)

/-- The bucket of every value from `lo` to `hi`, if they share one. -/
def common? (b : IntervalBuckets) (lo hi : Int) : Option (Option Nat) :=
  if hi < lo then some none
  else if b.min ≤ lo && hi < b.max then
    some (if b.inside lo = b.inside hi then some (b.inside lo) else none)
  else if hi < b.min then b.below?.map some
  else if b.max ≤ lo then b.above?.map some
  else some none

end IntervalBuckets

/-- The new group of a document of `group` in `bucket`, with `total` buckets per group. Group 0 and
bucket 0 stay 0. -/
def compose? (group bucket total : Nat) : Option Nat :=
  if group = 0 || bucket = 0 then some 0
  else
    let composed := (group - 1) * total + bucket
    if composed < wordBound then some (composed % halfWordBound) else none

/-- The largest group that composing `numGroups` groups with `total` buckets gives, which must be a
group id. -/
def highestComposed (numGroups total : Nat) : Except Error Nat := do
  let highest := (numGroups - 1) * total
  require (highest ≤ maxId) (.compositionTooLarge numGroups total)
  return highest

end Cohort
