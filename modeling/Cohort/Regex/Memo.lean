/-!
# A memory of what was built

A `Memo` remembers under which number something with a key was built. It has a fixed number of
slots; a key belongs to the slot that its hash names, and what comes later displaces what was there.
So a find is always right, and a miss only means that the thing is built once more.
-/

namespace Cohort.Regex

structure Memo where
  slots : Array (Option (List Nat × Nat))

namespace Memo

/-- A memory of `n` slots. -/
def ofSize (n : Nat) : Memo := ⟨Array.replicate n none⟩

/-- The hash of a key: for each number, exclusive or and then a product, in 64 bits. -/
def hash (key : List Nat) : UInt64 :=
  key.foldl (fun h x => (h ^^^ x.toUInt64) * 1099511628211) 14695981039346656037

/-- The slot that a key belongs to. -/
def slot (m : Memo) (key : List Nat) : Nat := (hash key).toNat % m.slots.size

/-- The number that is known for a key, which belongs to `slot`. -/
def at? (m : Memo) (slot : Nat) (key : List Nat) : Option Nat :=
  match m.slots[slot]? with
  | some (some (known, n)) => if known == key then some n else none
  | _ => none

def put (m : Memo) (slot : Nat) (key : List Nat) (n : Nat) : Memo :=
  ⟨m.slots.setIfInBounds slot (some (key, n))⟩

end Memo

end Cohort.Regex
