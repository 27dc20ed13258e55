import Cohort.Error
import Cohort.Memory.Ledger

/-!
# Charging a ledger from within a computation

`claim` and `release` are the moves of a ledger as steps that may fail: a refused claim is an error
of the caller, a release of bytes that were never claimed a broken check. `holding` keeps what it
claimed only if the rest succeeds.
-/

namespace Cohort.Memory

/-- A computation that moves bytes of one ledger. -/
abbrev Charge := EStateM Failure Ledger

def claim (bytes : Nat) : Charge Unit := fun l =>
  match l.claim? bytes with
  | some l' => .ok () l'
  | none => .error (.refused (.outOfMemory (l.shortage bytes))) l

def release (bytes : Nat) : Charge Unit := fun l =>
  match l.release? bytes with
  | some l' => .ok () l'
  | none => .error .broken l

/-- Claims `bytes` and leaves them claimed; gives them back if `body` fails. Nothing of `body` is
worked out before they are claimed. -/
def holding {α : Type} (bytes : Nat) (body : Unit → Charge α) : Charge α := do
  claim bytes
  try body ()
  catch e =>
    release bytes
    throw e

end Cohort.Memory
