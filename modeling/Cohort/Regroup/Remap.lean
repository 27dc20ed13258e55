import Cohort.Regroup.Feed

/-!
# Remapping groups

All documents of a group move together, all groups at once. Of several destinations of one group
the last counts; groups without a destination stay, or go to group 0 if only remapped ones are to be
kept.
-/

namespace Cohort.Regroup

open Pass

/-- Checks the two lists of a remap. -/
def checkRemap (sources destinations : List Nat) : Except Error Unit := do
  require (sources.length = destinations.length)
    (.remapLength sources.length destinations.length)
  require (!sources.contains 0) .remapsZero

/-- The new group of every old one. -/
def remapTable (sources destinations : List Nat) (onlyRemapped : Bool) (numGroups : Nat) :
    Array Nat :=
  let start := if onlyRemapped then .replicate numGroups 0 else Array.range numGroups
  (sources.zip destinations).foldl (fun table (source, d) => table.setIfInBounds source d) start

/-- Remaps groups; returns the new number of groups. -/
def byRemap (feed : Feed) (sources destinations : List Nat) (onlyRemapped : Bool) : Pass Nat := do
  orRefused (checkRemap sources destinations)
  unlessFilteredOut fun n =>
    scratch (n * 4) fun _ => do
      let table := remapTable sources destinations onlyRemapped n
      if table == Array.range n then return n
      if table.all (· == 0) then
        replace 0
        return 1
      makeRoom (table.foldl max 0)
      change (·.mapGroups? feed.chunk fun _ group => table[group]?)
      recount

end Cohort.Regroup
