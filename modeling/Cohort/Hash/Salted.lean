import Cohort.Hash.Xxh3

/-!
# Hashing terms under a salt

The salt is hashed to a seed, and every term under that seed: an integer as its eight bytes in
two's complement, lowest first, a string as its UTF-8 bytes. `SaltedHash` is any such function, so
that what is built on it does not depend on which hash it is.
-/

namespace Cohort

/-- A 64-bit hash of the terms of a field, for one salt. -/
structure SaltedHash where
  ofInt : Int → Nat
  ofString : String → Nat

namespace SaltedHash

/-- XXH3, seeded by the hash of the salt. -/
def xxh3 (salt : String) : SaltedHash :=
  let seed := Hash.Xxh3.hash salt.toUTF8 0
  { ofInt := fun v =>
      (Hash.Xxh3.hash ⟨(Hash.bytesOf (UInt64.ofInt v)).toArray⟩ seed).toNat
    ofString := fun s => (Hash.Xxh3.hash s.toUTF8 seed).toNat }

end SaltedHash

end Cohort
