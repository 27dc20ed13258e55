import Mathlib.Tactic.SplitIfs
import Mathlib.Data.List.Chain
import Mathlib.Order.Basic
import Cohort.Hash.Cuts
import Cohort.Proofs.Outcome

/-!
# Cuts — the bucket of a hash is the number of cuts at or below it

Fractions that pass their check lie in `0 .. 1` and ascend, and so do their cuts: scaling and
rounding down is monotone there. On ascending cuts the bisection keeps two ends, with all cuts
before the lower one at or below the hash and all cuts from the upper one on above it.
-/

namespace Cohort

/-! ### Cuts ascend -/

namespace Binary64

variable {x y : Binary64}

theorem of_inUnitInterval (hx : x.inUnitInterval = true) :
    x.isNaN = false ∧ 0 ≤ x.scaled ∧ x.scaled ≤ unitsPerOne := by
  -- the scale stays folded: it is too large a number to be multiplied out
  rw [inUnitInterval, Bool.and_eq_true, Bool.and_eq_true, Bool.not_eq_true', decide_eq_true_eq,
    decide_eq_true_eq, and_assoc] at hx
  exact hx

/-- In the unit interval a cut is the scaled fraction, rounded down. -/
theorem timesTwoPow64_eq (hx : x.inUnitInterval = true) :
    x.timesTwoPow64 = x.scaled.toNat * Nat.pow 2 64 / unitsPerOne := by
  obtain ⟨hnan, h0, h1⟩ := of_inUnitInterval hx
  cases hneg : x.isNegative with
  | true =>
    -- only zero is in the interval in spite of its sign
    have hzero : x.scaled = 0 := by
      unfold scaled at h0 ⊢
      rw [hneg, if_pos rfl] at h0 ⊢
      omega
    unfold timesTwoPow64
    rw [hnan, hneg, Bool.false_or, if_pos rfl, hzero, Int.toNat_zero, Nat.zero_mul, Nat.zero_div]
  | false =>
    have hscaled : x.scaled.toNat = x.magnitude := by
      unfold scaled
      rw [hneg, if_neg (by decide), Int.toNat_natCast]
    have hle : x.magnitude * Nat.pow 2 64 / unitsPerOne ≤ Nat.pow 2 64 :=
      Nat.div_le_of_le_mul (Nat.mul_le_mul_right _ (by omega))
    unfold timesTwoPow64
    rw [hnan, hneg, if_neg (by decide), hscaled]
    exact Nat.min_eq_left (Nat.le_trans hle (by decide))

theorem timesTwoPow64_mono (hx : x.inUnitInterval = true) (hy : y.inUnitInterval = true)
    (h : x.scaled ≤ y.scaled) : x.timesTwoPow64 ≤ y.timesTwoPow64 := by
  rw [timesTwoPow64_eq hx, timesTwoPow64_eq hy]
  exact Nat.div_le_div_right (Nat.mul_le_mul_right _ (Int.toNat_le_toNat h))

end Binary64

/-- Fractions that pass their check lie in the unit interval and ascend, the one before them
included. -/
theorem ascending_of_checkAscending {i : Nat} {previous : Option Binary64}
    {fractions : List Binary64} {u : Unit} (hprevious : ∀ q ∈ previous, q.isNaN = false)
    (h : checkAscending i previous fractions = .ok u) :
    (∀ p ∈ fractions, p.inUnitInterval = true) ∧
      ((previous.toList ++ fractions).map Binary64.scaled).IsChain (· ≤ ·) := by
  induction fractions generalizing i previous with
  | nil => cases previous <;> simp
  | cons p rest ih =>
    obtain ⟨hunit, h⟩ := require_bind_ok h
    obtain ⟨horder, h⟩ := require_bind_ok h
    obtain ⟨hnan, -⟩ := Binary64.of_inUnitInterval hunit
    obtain ⟨hrest, hchain⟩ := ih (by simpa using hnan) h
    refine ⟨List.forall_mem_cons.mpr ⟨hunit, hrest⟩, ?_⟩
    cases previous with
    | none => exact hchain
    | some q =>
      have hq := hprevious q rfl
      refine List.isChain_cons_cons.mpr ⟨?_, hchain⟩
      simpa [Binary64.lt, hnan, hq] using horder

/-- Fractions that lie in the unit interval and ascend pass their check. -/
theorem checkAscending_of_ascending {i : Nat} {previous : Option Binary64}
    {fractions : List Binary64} (hunit : ∀ p ∈ fractions, p.inUnitInterval = true)
    (hchain : ((previous.toList ++ fractions).map Binary64.scaled).IsChain (· ≤ ·)) :
    checkAscending i previous fractions = .ok () := by
  induction fractions generalizing i previous with
  | nil => rfl
  | cons p rest ih =>
    obtain ⟨hp, hrest⟩ := List.forall_mem_cons.mp hunit
    have horder : (!previous.any (p.lt ·)) = true := by
      cases previous with
      | none => rfl
      | some q =>
        have hle := (List.isChain_cons_cons.mp hchain).1
        simp [Binary64.lt, hle]
    have hchain : (((some p).toList ++ rest).map Binary64.scaled).IsChain (· ≤ ·) := by
      cases previous with
      | none => exact hchain
      | some q => exact (List.isChain_cons_cons.mp hchain).2
    rw [checkAscending, hp, horder]
    exact ih hrest hchain

/-- The cuts of fractions that pass their check ascend. -/
theorem pairwise_cuts {fractions : List Binary64} {u : Unit}
    (h : checkAscending 0 none fractions = .ok u) :
    (fractions.map Binary64.timesTwoPow64).Pairwise (· ≤ ·) := by
  obtain ⟨hunit, hchain⟩ := ascending_of_checkAscending (by simp) h
  have hscaled := List.pairwise_map.mp (List.isChain_iff_pairwise.mp hchain)
  exact List.pairwise_map.mpr (hscaled.imp_of_mem fun hp hq hle =>
    Binary64.timesTwoPow64_mono (hunit _ hp) (hunit _ hq) hle)

namespace HashCuts

/-! ### The bisection -/

variable {cuts : List Nat} {hash lo hi : Nat}

/-- The cuts before `lo` are at or below the hash, and those from `hi` on are above it. -/
structure Between (cuts : List Nat) (hash lo hi : Nat) : Prop where
  le_length : hi ≤ cuts.length
  below : ∀ i (h : i < cuts.length), i < lo → cuts[i] ≤ hash
  above : ∀ i (h : i < cuts.length), hi ≤ i → hash < cuts[i]

theorem Between.raise (h : Between cuts hash lo hi) (hsorted : cuts.Pairwise (· ≤ ·)) {m lo' : Nat}
    (hm : m < cuts.length) (hle : cuts[m] ≤ hash) (hlo : lo' ≤ m + 1) :
    Between cuts hash lo' hi := by
  refine ⟨h.le_length, fun i hi hlt => ?_, h.above⟩
  rcases Nat.lt_or_eq_of_le (Nat.lt_succ_iff.mp (Nat.lt_of_lt_of_le hlt hlo)) with him | rfl
  · exact Nat.le_trans (List.pairwise_iff_getElem.mp hsorted i m hi hm him) hle
  · exact hle

theorem Between.lower (h : Between cuts hash lo hi) (hsorted : cuts.Pairwise (· ≤ ·)) {m hi' : Nat}
    (hm : m < cuts.length) (hlt : hash < cuts[m]) (hhi : m ≤ hi') (hle : hi' ≤ cuts.length) :
    Between cuts hash lo hi' := by
  refine ⟨hle, h.below, fun i hi hge => ?_⟩
  rcases Nat.lt_or_eq_of_le (Nat.le_trans hhi hge) with him | rfl
  · exact Nat.lt_of_lt_of_le hlt (List.pairwise_iff_getElem.mp hsorted m i hm hi him)
  · exact hlt

/-- The ends meet at the bucket. -/
theorem between_bisect (hsorted : cuts.Pairwise (· ≤ ·)) {base size : Nat} (hsize : 0 < size)
    (h : Between cuts hash base (base + size)) :
    Between cuts hash (bisect cuts.toArray hash base size)
      (bisect cuts.toArray hash base size) := by
  have hget : ∀ i (hi : i < cuts.length), cuts.toArray.getD i 0 = cuts[i] :=
    fun i hi => by simp [hi]
  induction size using Nat.strongRecOn generalizing base with
  | ind size ih =>
    have hend := h.le_length
    rw [bisect]
    by_cases h1 : 1 < size
    · have hm : base + size / 2 < cuts.length := by omega
      have hsum : base + size / 2 + (size - size / 2) = base + size := by omega
      simp only [if_pos h1, hget _ hm]
      split_ifs with hle
      · refine ih (size - size / 2) (by omega) (by omega) ?_
        rw [hsum]
        exact h.raise hsorted hm hle (Nat.le_succ _)
      · refine ih (size - size / 2) (by omega) (by omega) ?_
        exact h.lower hsorted hm (Nat.lt_of_not_le hle) (by omega) (by omega)
    · obtain rfl : size = 1 := by omega
      have hm : base < cuts.length := by omega
      simp only [if_neg h1, hget _ hm]
      split_ifs with hle
      · exact h.raise hsorted hm hle (Nat.le_refl _)
      · exact h.lower hsorted hm (Nat.lt_of_not_le hle) (Nat.le_refl _) (by omega)

theorem Between.countP_eq {bucket : Nat} (h : Between cuts hash bucket bucket) :
    cuts.countP (· ≤ hash) = bucket := by
  have hbelow : (cuts.take bucket).countP (· ≤ hash) = (cuts.take bucket).length := by
    refine List.countP_eq_length.mpr fun c hc => ?_
    obtain ⟨i, hi, rfl⟩ := List.mem_take_iff_getElem.mp hc
    exact decide_eq_true (h.below i (by omega) (by omega))
  have habove : (cuts.drop bucket).countP (· ≤ hash) = 0 := by
    refine List.countP_eq_zero.mpr fun c hc => ?_
    obtain ⟨i, hi, rfl⟩ := List.mem_drop_iff_getElem.mp hc
    have := h.above (bucket + i) (by omega) (Nat.le_add_right _ _)
    simpa using this
  rw [← List.take_append_drop bucket cuts, List.countP_append, hbelow, habove, List.length_take,
    Nat.min_eq_left h.le_length, Nat.add_zero]

/-- The bucket of a hash divides the cuts into those at or below it and those above it. -/
theorem between_bucketOf {fractions : List Binary64} {u : Unit}
    (h : checkAscending 0 none fractions = .ok u) (hash : Nat) :
    Between (fractions.map Binary64.timesTwoPow64) hash ((ofFractions fractions).bucketOf hash)
      ((ofFractions fractions).bucketOf hash) := by
  have hsorted := pairwise_cuts h
  unfold bucketOf ofFractions
  generalize fractions.map Binary64.timesTwoPow64 = cuts at hsorted
  by_cases hempty : cuts = []
  · subst hempty
    exact ⟨Nat.le_refl 0, nofun, nofun⟩
  · have hpos := List.length_pos_iff.mpr hempty
    rw [if_neg (by simpa using hempty), List.size_toArray]
    refine between_bisect hsorted hpos ?_
    exact ⟨by omega, fun _ _ h0 => absurd h0 (Nat.not_lt_zero _), fun i hi hge => by omega⟩

/-- The bucket of a hash is the number of cuts at or below it. -/
theorem bucketOf_eq {fractions : List Binary64} {u : Unit}
    (h : checkAscending 0 none fractions = .ok u) (hash : Nat) :
    (ofFractions fractions).bucketOf hash =
      (fractions.map Binary64.timesTwoPow64).countP (· ≤ hash) :=
  (between_bucketOf h hash).countP_eq.symm

end HashCuts

end Cohort
