/-!
# Words: the numbers of 32 and of 64 bits

Field values, sums of metrics and byte counts are 64-bit numbers; documents, groups and counters are
32-bit numbers. Bounds come before the places that check them, and sums that may pass a bound are
reduced.
-/

namespace Cohort

/-- One more than the largest number of 64 bits. -/
abbrev wordBound : Nat := 0x1_0000_0000_0000_0000

/-- One more than the largest number of 32 bits. -/
abbrev halfWordBound : Nat := 0x1_0000_0000

/-- Group ids and document ids are 32-bit. -/
def maxId : Nat := halfWordBound - 1

/-- A number that must be a group or document id. -/
def asId? (n : Nat) : Option Nat := if n ≤ maxId then some n else none

/-- A sum or a number of bytes that must be a 64-bit number. -/
def word? (n : Nat) : Option Nat := if n < wordBound then some n else none

@[simp] theorem asId?_eq_some {n k : Nat} : asId? n = some k ↔ n ≤ maxId ∧ n = k := by
  simp [asId?]

@[simp] theorem asId?_eq_none {n : Nat} : asId? n = none ↔ maxId < n := by
  simp [asId?]

theorem asId?_of_le {n : Nat} (h : n ≤ maxId) : asId? n = some n := if_pos h

@[simp] theorem word?_eq_some {n k : Nat} : word? n = some k ↔ n < wordBound ∧ n = k := by
  simp [word?]

theorem mod_halfWordBound {n : Nat} (h : n ≤ maxId) : n % halfWordBound = n :=
  Nat.mod_eq_of_lt (Nat.lt_succ_of_le h)

/-- Integers that a field can hold. -/
def isInt64 (v : Int) : Bool := -0x8000_0000_0000_0000 ≤ v && v < 0x8000_0000_0000_0000

/-- Reduces modulo `2 ^ 64` into the range of a 64-bit signed integer. -/
def wrap64 (v : Int) : Int := v.bmod wordBound

/-- Reduces modulo `2 ^ 32` into the range of a 32-bit signed integer. -/
def wrap32 (v : Int) : Int := v.bmod halfWordBound

end Cohort
