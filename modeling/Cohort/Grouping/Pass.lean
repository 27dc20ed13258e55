import Cohort.Grouping.Basic
import Cohort.Memory.Charge

/-!
# Passes: computations over a grouping and the ledger that pays for it

A pass may claim bytes, grow the grouping and change it. The ledger always holds the bytes of the
current grouping: `makeRoom` and `replace` keep it so.

· `scratch` holds bytes for as long as its body runs, whether that succeeds or fails.
· `makeRoom` claims the wider array while the narrower one is still held, and changes nothing if the
  claim is refused.
-/

namespace Cohort

/-- What a pass works on. -/
structure Workspace where
  ledger : Memory.Ledger
  grouping : Grouping
  deriving Repr

abbrev Pass := EStateM Failure Workspace

namespace Pass

variable {α : Type}

/-- Runs a computation on the ledger. -/
def onLedger (x : Memory.Charge α) : Pass α := fun w =>
  match x w.ledger with
  | .ok a l => .ok a { w with ledger := l }
  | .error e l => .error e { w with ledger := l }

def grouping : Pass Grouping := do return (← get).grouping

def setGrouping (g : Grouping) : Pass Unit := modify fun w => { w with grouping := g }

/-- Holds `bytes` while `body` runs. Nothing of `body` is worked out before they are claimed. -/
def scratch (bytes : Nat) (body : Unit → Pass α) : Pass α := do
  onLedger (Memory.claim bytes)
  try body ()
  finally onLedger (Memory.release bytes)

/-- Replaces the grouping by one that stores nothing. -/
def replace (group : Nat) : Pass Unit := do
  let g ← grouping
  onLedger (Memory.release g.bytes)
  setGrouping (.constant group g.len)

/-- A stored grouping, all in group 0, with room for `maxGroup`. -/
def create (maxGroup numDocs : Nat) : Pass Unit := do
  let g ← grouping
  let bytes ← orBroken (word? (StoredGroups.bytesFor (.fitting maxGroup) numDocs))
  onLedger (Memory.claim bytes)
  onLedger (Memory.release g.bytes)
  setGrouping (.stored (.blank maxGroup numDocs))

/-- Makes the grouping stored, with room for `maxGroup`. -/
def makeRoom (maxGroup : Nat) : Pass Unit := do
  let g ← grouping
  if g.fits maxGroup then setGrouping (g.announce maxGroup)
  else
    let bytes ← orBroken (word? (g.widenedBytes maxGroup))
    onLedger (Memory.claim bytes)
    let wider ← orBroken (g.widen? maxGroup)
    onLedger (Memory.release g.bytes)
    setGrouping wider

/-- Stores the outcome of a change that must not fail. -/
def change (f : Grouping → Option Grouping) : Pass Unit := do
  setGrouping (← orBroken (f (← grouping)))

/-- Recomputes and returns the number of groups. -/
def recount : Pass Nat := do
  change Grouping.recount?
  return (← grouping).numGroups

end Pass

end Cohort
