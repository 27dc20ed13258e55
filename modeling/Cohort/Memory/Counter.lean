/-!
# Counters: 64-bit tallies that never go negative

A withdrawal takes the whole amount or nothing, so a refused one leaves the counter as it was.
Deposits are taken modulo `2 ^ 64`.
-/

namespace Cohort.Memory

structure Counter where
  value : UInt64
  deriving DecidableEq, Repr

namespace Counter

/-- Takes `amount`, or `none` if the counter holds less. -/
def withdraw? (c : Counter) (amount : UInt64) : Option Counter :=
  if amount ≤ c.value then some ⟨c.value - amount⟩ else none

def deposit (c : Counter) (amount : UInt64) : Counter :=
  ⟨c.value + amount⟩

/-- Raises the counter to `value` if it is lower: a high-water mark. -/
def raiseTo (c : Counter) (value : UInt64) : Counter :=
  ⟨max c.value value⟩

end Counter

end Cohort.Memory
