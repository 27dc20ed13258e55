import Cohort.Bucket.Grid
import Cohort.Regroup.Feed

/-!
# Regrouping by values

· `byBuckets` splits every group by the bucket of a value.
· `byGrid` replaces every group but 0 by the cell of two values.
· `byRange` keeps the documents whose value lies in a range, or outside it.

Where the bounds of a value table already decide the outcome for all documents, the values are not
read.
-/

namespace Cohort.Regroup

open Pass

/-- Sends every document of every group to the same bucket of its group. -/
def toOneBucket (feed : Feed) (bucket total : Nat) : Pass Nat := do
  if bucket = 0 then
    replace 0
    return 1
  match ← grouping with
  | .constant group _ =>
    let composed ← orBroken (compose? group bucket total)
    replace composed
    recount
  | .stored s =>
    makeRoom (← orBroken (compose? (s.numGroups - 1) bucket total))
    change (·.mapGroups? feed.chunk fun _ group => compose? group bucket total)
    recount

/-- Splits every group by the buckets of a value. -/
def byBuckets (feed : Feed) (values : ValueTable) (buckets : IntervalBuckets) : Pass Nat :=
  unlessFilteredOut fun n => do
    let total := buckets.total
    let highest ← orRefused (highestComposed n total)
    match ← orBroken (buckets.common? values.low values.high) with
    | some bucket => toOneBucket feed bucket total
    | none =>
      makeRoom highest
      change (·.mapGroupsWithValues? feed.chunk values fun group value => do
        compose? group (← buckets.bucket? value) total)
      recount

/-- Sends every document outside group 0 to `group`. -/
def toOneGroup (feed : Feed) (group : Nat) : Pass Nat := do
  match ← grouping with
  | .constant old _ =>
    if old ≠ 0 then replace group
    recount
  | .stored _ =>
    makeRoom group
    change (·.mapGroups? feed.chunk fun _ old => some (if old = 0 then 0 else group))
    recount

/-- The cells of a chunk of documents; group 0 stays 0. -/
def cellChunk? (grid : Grid) (x y : ValueTable) (g : Grouping) (docs : List Nat) :
    Option Grouping := do
  let groups ← g.groupsOf? docs
  let xs ← x.valuesOf? docs
  let ys ← y.valuesOf? docs
  let written ← (groups.zip (xs.zip ys)).mapM fun (group, x, y) =>
    if group = 0 then some 0 else grid.cell? x y
  g.setAll? docs written

/-- Replaces every group but 0 by the cell of two values. The values of one axis are buffered in
bytes of their own. -/
def byGrid (feed : Feed) (x y : ValueTable) (grid : Grid) : Pass Nat :=
  unlessFilteredOut fun _ => do
    let highest ← orRefused grid.maxGroup
    match grid.x.common? x.low x.high, grid.y.common? y.low y.high with
    | some i, some j => toOneGroup feed (← orBroken (grid.cellAt? i j))
    | _, _ =>
      makeRoom highest
      let chunk := max 1 feed.chunk
      scratch (chunk * 8) fun _ => do
        change fun g => (chunks chunk (List.range g.len)).foldlM (cellChunk? grid x y) g
        recount

/-- Keeps the documents whose value lies between `min` and `max`, or those outside if `negate`; the
others go to group 0. -/
def byRange (feed : Feed) (values : ValueTable) (min max : Int) (negate : Bool) : Pass Nat :=
  unlessFilteredOut fun n => do
    let allInside := min ≤ values.low && values.high ≤ max
    let allOutside := values.high < min || max < values.low
    if allInside || allOutside then
      if allInside == negate then
        replace 0
        return 1
      return n
    makeRoom (n - 1)
    change (·.mapGroupsWithValues? feed.chunk values fun group value =>
      some (if (min ≤ value && value ≤ max) != negate then group else 0))
    recount

end Cohort.Regroup
