import Cohort.Memory.Counter

/-!
# Nodes: accounts that are kept in counters

A node counts down what is left of its limit and remembers the most that was ever used of it. It is
listed before the nodes that it draws on in turn.

· `allocate` takes an amount from a node before it asks the next one, and puts it back if that one
  refuses; the high-water marks rise once all have agreed.
· `release?` gives none where a node would be given back more than was taken.
-/

namespace Cohort.Memory

structure Node where
  limit : UInt64
  remaining : Counter
  peak : Counter
  deriving DecidableEq, Repr

namespace Node

def used (n : Node) : UInt64 := n.limit - n.remaining.value

/-- Whether the first node got the amount, and all nodes afterwards. -/
def allocate (amount : UInt64) : List Node → Bool × List Node
  | [] => (true, [])
  | n :: above =>
    if amount = 0 then (true, n :: above)
    else
      match n.remaining.withdraw? amount with
      | none => (false, n :: above)
      | some left =>
        match allocate amount above with
        | (true, above) =>
          let n := { n with remaining := left }
          (true, { n with peak := n.peak.raiseTo n.used } :: above)
        | (false, above) => (false, { n with remaining := left.deposit amount } :: above)

/-- Puts the amount back into all nodes. -/
def release? (amount : UInt64) : List Node → Option (List Node)
  | [] => some []
  | n :: above =>
    if amount = 0 then some (n :: above)
    else if amount ≤ n.used then do
      let above ← release? amount above
      some ({ n with remaining := n.remaining.deposit amount } :: above)
    else none

end Node

end Cohort.Memory
