import Cohort.Grouping.Pass
import Cohort.Shard.Basic

/-!
# Feeds: what a regroup reads

A regroup is fed posting lists and documents through buffers of `chunk` entries. `Marking` is the
state of a pass that moves documents as the terms they hold come by: a document is moved at most
once.
-/

namespace Cohort

structure Feed where
  shard : Shard
  chunk : Nat

namespace Feed

def numDocs (f : Feed) : Nat := f.shard.numDocs

/-- Bytes of one set over the documents. -/
def setBytes (f : Feed) : Nat := DocSet.bytesFor f.numDocs

end Feed

/-- A grouping on its way, and the documents that were moved already. -/
structure Marking where
  grouping : Grouping
  moved : DocSet

namespace Marking

def start (g : Grouping) (numDocs : Nat) : Marking := ⟨g, .empty numDocs⟩

/-- Moves `doc` to the group that `destination` gives for its current one, unless it was moved
before. -/
def visit? (destination : Nat → Option Nat) (m : Marking) (doc : Nat) : Option Marking := do
  if m.moved.contains doc then return m
  let group ← m.grouping.get? doc
  match destination group with
  | none => return m
  | some g => return ⟨← m.grouping.set? doc g, ← m.moved.insert? doc⟩

/-- Visits the documents of a posting list, a chunk at a time. -/
def visitAll? (chunk : Nat) (destination : Nat → Option Nat) (m : Marking) (docs : List Nat) :
    Option Marking :=
  drain chunk docs (fun m docs => docs.foldlM (visit? destination) m) m

/-- Sends the documents that were not moved where `f` says by their group. -/
def finish? (chunk : Nat) (f : Nat → Nat) (m : Marking) : Option Grouping :=
  m.grouping.mapGroups? chunk fun doc group =>
    some (if m.moved.contains doc then group else f group)

end Marking

namespace Pass

/-- Runs `body` on sessions that still have documents outside group 0; others stay as they are. -/
def unlessFilteredOut (body : Nat → Pass Nat) : Pass Nat := do
  let n := (← grouping).numGroups
  if n ≤ 1 then return n
  body n

end Pass

end Cohort
