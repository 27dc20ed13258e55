import Mathlib.Algebra.Order.Ring.Rat
import Mathlib.Data.Rat.Floor
import Cohort.Proofs.Decimal.Binary64
import Cohort.Proofs.Hash.Cuts

/-!
# Fractions — the cuts of the hash range in exact arithmetic

Lists of fractions are accepted just if the numbers that they stand for lie in `0 .. 1` and do not
descend. The cut of a fraction is its number times `2 ^ 64`, rounded down, and a hash lies past the
cut just if its bucket does (`lt_bucketOf_iff`).
-/

namespace Cohort

/-- A cut is the exact product, rounded down. -/
theorem Binary64.floor_value_mul {x : Binary64} (hx : x.inUnitInterval = true) :
    ⌊x.value * 2 ^ 64⌋ = x.timesTwoPow64 := by
  obtain ⟨-, h0, -⟩ := of_inUnitInterval hx
  have hscaled : (x.scaled : ℚ) = (x.scaled.toNat : ℚ) := by
    rw [← Int.cast_natCast, Int.toNat_of_nonneg h0]
  rw [timesTwoPow64_eq hx, value_eq_div, hscaled, div_mul_eq_mul_div, Int.natCast_ediv,
    ← Rat.floor_natCast_div_natCast, Nat.cast_mul, cast_twoPow, zpow_natCast]

namespace HashCuts

variable {fractions : List Binary64} {hash : Nat} {u : Unit}
  (h : checkAscending 0 none fractions = .ok u)

include h

/-- A hash lies in a bucket past cut `i` just if the cut is at or below it. -/
theorem lt_bucketOf_iff {i : Nat} {p : Binary64} (hp : fractions[i]? = some p) :
    i < (ofFractions fractions).bucketOf hash ↔ ⌊p.value * 2 ^ 64⌋ ≤ hash := by
  have hbetween := between_bucketOf h hash
  obtain ⟨hi, rfl⟩ := List.getElem?_eq_some_iff.mp hp
  have hi' : i < (fractions.map Binary64.timesTwoPow64).length := by rwa [List.length_map]
  have hunit := (ascending_of_checkAscending (by simp) h).1 _ (List.getElem_mem hi)
  rw [Binary64.floor_value_mul hunit, Int.ofNat_le,
    ← List.getElem_map Binary64.timesTwoPow64 (h := hi')]
  refine ⟨hbetween.below i hi', fun hle => ?_⟩
  by_contra hge
  exact absurd (hbetween.above i hi' (Nat.le_of_not_lt hge)) (Nat.not_lt.mpr hle)

/-- The bucket of a hash is the number of cuts at or below it. -/
theorem bucketOf_eq_countP (hash : Nat) :
    (ofFractions fractions).bucketOf hash =
      fractions.countP (fun p => ⌊p.value * 2 ^ 64⌋ ≤ (hash : Int)) := by
  have hunit := (ascending_of_checkAscending (by simp) h).1
  rw [bucketOf_eq h, List.countP_map]
  refine List.countP_congr fun p hp => ?_
  simp [Binary64.floor_value_mul (hunit p hp)]

theorem bucketOf_le_length (hash : Nat) :
    (ofFractions fractions).bucketOf hash ≤ fractions.length := by
  rw [bucketOf_eq_countP h]
  exact List.countP_le_length

theorem bucketOf_mono {hash' : Nat} (hle : hash ≤ hash') :
    (ofFractions fractions).bucketOf hash ≤ (ofFractions fractions).bucketOf hash' := by
  rw [bucketOf_eq_countP h, bucketOf_eq_countP h]
  refine List.countP_mono_left fun p _ hp => ?_
  simp only [decide_eq_true_eq] at hp ⊢
  omega

/-- No hash lies between two equal cuts. -/
theorem bucketOf_ne_of_eq {i : Nat} {p q : Binary64} (hp : fractions[i]? = some p)
    (hq : fractions[i + 1]? = some q) (heq : p.value = q.value) :
    (ofFractions fractions).bucketOf hash ≠ i + 1 := by
  intro hbucket
  have hpast : i < (ofFractions fractions).bucketOf hash := by omega
  have hbefore := (lt_bucketOf_iff h hp).mp hpast
  have hafter := (lt_bucketOf_iff h hq).mpr (heq ▸ hbefore)
  omega

/-- The first cut alone decides about bucket 0. -/
theorem bucketOf_eq_zero_iff {p : Binary64} (hp : fractions.head? = some p) :
    (ofFractions fractions).bucketOf hash = 0 ↔ (hash : Int) < ⌊p.value * 2 ^ 64⌋ := by
  rw [List.head?_eq_getElem?] at hp
  rw [← not_le, ← lt_bucketOf_iff h hp]
  omega

end HashCuts

/-- What the check of fractions accepts, in terms of the numbers that they stand for. -/
theorem checkAscending_iff {fractions : List Binary64} :
    checkAscending 0 none fractions = .ok () ↔
      (∀ p ∈ fractions, p.isNaN = false ∧ 0 ≤ p.value ∧ p.value ≤ 1) ∧
        (fractions.map Binary64.value).Pairwise (· ≤ ·) := by
  have hscaled : (fractions.map Binary64.value).Pairwise (· ≤ ·) ↔
      (fractions.map Binary64.scaled).IsChain (· ≤ ·) := by
    rw [List.isChain_iff_pairwise, List.pairwise_map, List.pairwise_map]
    simp only [Binary64.value_le_value_iff]
  simp only [← Binary64.inUnitInterval_iff, hscaled]
  refine ⟨ascending_of_checkAscending (by simp), fun ⟨hunit, hchain⟩ => ?_⟩
  exact checkAscending_of_ascending hunit hchain

theorem checkFractions_iff {fractions : List Binary64} {results : List Nat} :
    checkFractions fractions results = .ok () ↔
      fractions.length + 1 = results.length ∧ checkAscending 0 none fractions = .ok () := by
  constructor
  · intro h
    obtain ⟨hlen, h⟩ := require_bind_ok h
    exact ⟨of_decide_eq_true hlen, h⟩
  · rintro ⟨hlen, h⟩
    unfold checkFractions
    rw [decide_eq_true hlen]
    exact h

/-- Fractions are accepted just if there is one result group more than fractions and they ascend
within `0 .. 1`. Their products with `2 ^ 64` are doubles again, so that they are exact, and the
bucket of a hash is the number of those that, rounded down, are at or below it. It stands for a
result group, grows with the hash, and is never the one between two equal fractions; a first
fraction of 1 leaves only bucket 0, and one of 0 leaves it empty. -/
theorem fractions_meaning (fractions : List Binary64) (results : List Nat) :
    (checkFractions fractions results = .ok () ↔
      fractions.length + 1 = results.length ∧
      (∀ p ∈ fractions, p.isNaN = false ∧ 0 ≤ p.value ∧ p.value ≤ 1) ∧
      (fractions.map Binary64.value).Pairwise (· ≤ ·)) ∧
    (checkFractions fractions results = .ok () →
      (∀ p ∈ fractions, ∃ product : Binary64, product.isNaN = false ∧
        product.isInfinite = false ∧ product.value = p.value * 2 ^ 64) ∧
      let bucketOf := (HashCuts.ofFractions fractions).bucketOf
      ∀ hash < wordBound,
        bucketOf hash = fractions.countP (fun p => ⌊p.value * 2 ^ 64⌋ ≤ (hash : Int)) ∧
        bucketOf hash < results.length ∧
        (∀ hash', hash ≤ hash' → bucketOf hash ≤ bucketOf hash') ∧
        (∀ i p q, fractions[i]? = some p → fractions[i + 1]? = some q → p.value = q.value →
          bucketOf hash ≠ i + 1) ∧
        ∀ p, fractions.head? = some p →
          (p.value = 1 → bucketOf hash = 0) ∧ (p.value = 0 → bucketOf hash ≠ 0)) := by
  rw [checkFractions_iff, checkAscending_iff]
  refine ⟨Iff.rfl, ?_⟩
  rw [← checkAscending_iff]
  rintro ⟨hlen, h⟩
  have hunit := (ascending_of_checkAscending (by simp) h).1
  refine ⟨fun p hp => Binary64.exists_value_eq_mul (hunit p hp), ?_⟩
  intro bucketOf hash hhash
  refine ⟨HashCuts.bucketOf_eq_countP h hash, ?_, fun hash' hle => HashCuts.bucketOf_mono h hle,
    fun i p q hp hq heq => HashCuts.bucketOf_ne_of_eq h hp hq heq, fun p hp => ?_⟩
  · rw [← hlen]
    exact Nat.lt_succ_of_le (HashCuts.bucketOf_le_length h hash)
  · have hfirst : bucketOf hash = 0 ↔ (hash : Int) < ⌊p.value * 2 ^ 64⌋ :=
      HashCuts.bucketOf_eq_zero_iff h hp
    refine ⟨fun hone => ?_, fun hzero => ?_⟩
    · rw [hfirst, hone, show ⌊(1 : ℚ) * 2 ^ 64⌋ = wordBound by norm_num]
      omega
    · rw [ne_eq, hfirst, hzero, zero_mul, Int.floor_zero]
      omega

/-- A fraction of 0 and two equal ones of a half: half of all hashes are in bucket 1 and the others
in bucket 3. -/
theorem fractions_meaning_halves :
    checkFractions [⟨0⟩, ⟨0x3fe0000000000000⟩, ⟨0x3fe0000000000000⟩] [4, 1, 2, 3] = .ok () ∧
    (HashCuts.ofFractions [⟨0⟩, ⟨0x3fe0000000000000⟩, ⟨0x3fe0000000000000⟩]).bucketOf 5 < 4 ∧
    (HashCuts.ofFractions [⟨0⟩, ⟨0x3fe0000000000000⟩, ⟨0x3fe0000000000000⟩]).bucketOf 5 ≠ 0 ∧
    (HashCuts.ofFractions [⟨0⟩, ⟨0x3fe0000000000000⟩, ⟨0x3fe0000000000000⟩]).bucketOf 5 ≠ 2 := by
  have hcheck : checkFractions [⟨0⟩, ⟨0x3fe0000000000000⟩, ⟨0x3fe0000000000000⟩] [4, 1, 2, 3] =
      .ok () := by decide +kernel
  have hzero : Binary64.value ⟨0⟩ = 0 := by
    rw [Binary64.value_eq_div, show Binary64.scaled ⟨0⟩ = 0 by decide +kernel, Int.cast_zero,
      zero_div]
  obtain ⟨-, hlt, -, hskip, hfirst⟩ := ((fractions_meaning _ _).2 hcheck).2 5 (by decide)
  exact ⟨hcheck, hlt, (hfirst _ rfl).2 hzero, hskip 1 _ _ rfl rfl rfl⟩

end Cohort
