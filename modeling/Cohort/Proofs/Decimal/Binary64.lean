import Mathlib.Algebra.Order.Field.Basic
import Mathlib.Algebra.Order.Field.Power
import Mathlib.Data.Rat.Cast.Order
import Mathlib.Tactic.FieldSimp
import Mathlib.Tactic.Linarith
import Mathlib.Tactic.NormNum
import Mathlib.Tactic.Positivity
import Mathlib.Tactic.Ring
import Mathlib.Tactic.SplitIfs
import Cohort.Decimal.Binary64

/-!
# Binary64 — the number that a double stands for

`value` is the rational number that the three fields of a double stand for; `scaled` is the same
number in units of the smallest double. Doubles of the unit interval stay exact when they are
multiplied by `2 ^ 64`: there is a double for the product (`exists_value_eq_mul`).
-/

namespace Cohort.Binary64

/-- `|x|` as a rational number. Exponent 0 marks numbers without a leading bit; an infinity counts as
the power of two that no finite double reaches. -/
def size (x : Binary64) : ℚ :=
  if x.exponentField = 0 then x.fraction / 2 ^ 52 * 2 ^ (-1022 : Int)
  else (1 + x.fraction / 2 ^ 52) * 2 ^ ((x.exponentField : Int) - 1023)

/-- The rational number that a double stands for. -/
def value (x : Binary64) : ℚ := if x.isNegative then -x.size else x.size

/-! ### In units of the smallest double -/

theorem cast_twoPow (n : Nat) : ((Nat.pow 2 n : Nat) : ℚ) = 2 ^ (n : Int) := by
  rw [zpow_natCast]
  exact Nat.cast_pow 2 n

theorem cast_unitsPerOne : (unitsPerOne : ℚ) = 2 ^ (1074 : Int) := by
  -- the exponent is named, so that the power is not multiplied out
  obtain ⟨n, hn, h⟩ : ∃ n : Nat, n = 1074 ∧ unitsPerOne = Nat.pow 2 n :=
    ⟨1000 + 74, rfl, by decide +kernel⟩
  rw [h, cast_twoPow, hn]
  rfl

theorem unitsPerOne_pos : (0 : ℚ) < unitsPerOne := by
  rw [cast_unitsPerOne]
  exact zpow_pos (by decide) _

/-- Scaling is shifting the significand to where the smallest double is 1. -/
theorem size_mul_unitsPerOne (x : Binary64) : x.size * unitsPerOne = x.magnitude := by
  have h2 : (2 : ℚ) ≠ 0 := by decide
  have hhidden : (hiddenBit : ℚ) = 2 ^ 52 := by norm_num [hiddenBit]
  unfold size magnitude significand shift
  rw [Nat.cast_mul, cast_twoPow, cast_unitsPerOne]
  split_ifs with hexp
  · rw [hexp, mul_assoc, ← zpow_add₀ h2]
    norm_num
  · have hshift : ((x.exponentField - 1 : Nat) : Int) = x.exponentField - 1 := by omega
    rw [hshift, mul_assoc, ← zpow_add₀ h2, Nat.cast_add, hhidden,
      show (x.exponentField : Int) - 1023 + 1074 = 52 + (x.exponentField - 1) by omega,
      zpow_add₀ h2]
    field_simp
    norm_num
    ring

theorem value_mul_unitsPerOne (x : Binary64) : x.value * unitsPerOne = x.scaled := by
  have h := size_mul_unitsPerOne x
  unfold value scaled
  cases x.isNegative with
  | true => rw [if_pos rfl, if_pos rfl, neg_mul, h, Int.cast_neg, Int.cast_natCast]
  | false => rw [if_neg (by decide), if_neg (by decide), h, Int.cast_natCast]

theorem value_eq_div (x : Binary64) : x.value = x.scaled / unitsPerOne :=
  (eq_div_iff unitsPerOne_pos.ne').mpr x.value_mul_unitsPerOne

variable {x y : Binary64}

theorem value_le_value_iff : x.value ≤ y.value ↔ x.scaled ≤ y.scaled := by
  rw [value_eq_div, value_eq_div, div_le_div_iff_of_pos_right unitsPerOne_pos, Int.cast_le]

theorem inUnitInterval_iff :
    x.inUnitInterval = true ↔ x.isNaN = false ∧ 0 ≤ x.value ∧ x.value ≤ 1 := by
  have h0 : 0 ≤ x.value ↔ 0 ≤ x.scaled := by
    rw [value_eq_div, le_div_iff₀ unitsPerOne_pos, zero_mul, Int.cast_nonneg_iff]
  have h1 : x.value ≤ 1 ↔ x.scaled ≤ unitsPerOne := by
    rw [value_eq_div, div_le_one unitsPerOne_pos, ← Int.cast_natCast, Int.cast_le]
  rw [h0, h1, inUnitInterval, Bool.and_eq_true, Bool.and_eq_true, Bool.not_eq_true',
    decide_eq_true_eq, decide_eq_true_eq, and_assoc]

/-! ### Fields -/

theorem isNegative_eq (x : Binary64) : x.isNegative = decide (2 ^ 63 ≤ x.bits.toNat) := by
  have hshift : (x.bits >>> 63).toNat = x.bits.toNat / 2 ^ 63 := by
    rw [UInt64.toNat_shiftRight, Nat.shiftRight_eq_div_pow]
    rfl
  have hlt := x.bits.toNat_lt
  unfold isNegative
  rw [Bool.eq_iff_iff, bne_iff_ne, ne_eq, ← UInt64.toNat_inj, hshift, decide_eq_true_eq,
    UInt64.toNat_zero]
  omega

theorem exponentField_eq (x : Binary64) : x.exponentField = x.bits.toNat / 2 ^ 52 % 2 ^ 11 := by
  unfold exponentField
  rw [UInt64.toNat_and, UInt64.toNat_shiftRight, Nat.shiftRight_eq_div_pow]
  exact Nat.and_two_pow_sub_one_eq_mod _ 11

theorem fraction_eq (x : Binary64) : x.fraction = x.bits.toNat % 2 ^ 52 := by
  unfold fraction
  rw [UInt64.toNat_and]
  exact Nat.and_two_pow_sub_one_eq_mod _ 52

theorem fraction_lt (x : Binary64) : x.fraction < 2 ^ 52 := by
  rw [fraction_eq]
  exact Nat.mod_lt _ (by decide)

/-- Every choice of the three fields is a double. -/
theorem exists_fields (negative : Bool) {exponent fraction : Nat} (he : exponent < 2 ^ 11)
    (hf : fraction < 2 ^ 52) : ∃ y : Binary64, y.isNegative = negative ∧
      y.exponentField = exponent ∧ y.fraction = fraction := by
  obtain ⟨sign, hsign, hneg⟩ : ∃ sign : Nat, sign < 2 ∧ negative = decide (1 ≤ sign) := by
    cases negative with
    | true => exact ⟨1, by decide, rfl⟩
    | false => exact ⟨0, by decide, rfl⟩
  have hlt : sign * 2 ^ 63 + exponent * 2 ^ 52 + fraction < 2 ^ 64 := by omega
  refine ⟨⟨.ofNat (sign * 2 ^ 63 + exponent * 2 ^ 52 + fraction)⟩, ?_, ?_, ?_⟩
  · rw [isNegative_eq, hneg, UInt64.toNat_ofNat_of_lt' hlt, decide_eq_decide]
    omega
  · rw [exponentField_eq, UInt64.toNat_ofNat_of_lt' hlt]
    omega
  · rw [fraction_eq, UInt64.toNat_ofNat_of_lt' hlt]
    omega

/-! ### Products with `2 ^ 64` -/

theorem size_nonneg (x : Binary64) : 0 ≤ x.size := by
  unfold size
  split_ifs <;> positivity

theorem size_le_one (hx : x.inUnitInterval = true) : x.size ≤ 1 := by
  obtain ⟨-, h0, h1⟩ := inUnitInterval_iff.mp hx
  have hsize := x.size_nonneg
  unfold value at h0 h1
  split_ifs at h0 h1 <;> linarith

/-- Numbers of the unit interval have small exponents. -/
theorem exponentField_le (hx : x.inUnitInterval = true) : x.exponentField ≤ 1023 := by
  by_contra hlt
  have hsize := size_le_one hx
  have hfraction : (0 : ℚ) ≤ x.fraction / 2 ^ 52 := by positivity
  have hpow : (2 : ℚ) ^ (1 : Int) ≤ 2 ^ ((x.exponentField : Int) - 1023) :=
    zpow_le_zpow_right₀ (by norm_num) (by omega)
  unfold size at hsize
  rw [if_neg (by omega)] at hsize
  nlinarith

/-- A number without a leading bit gets one from its highest bit. -/
theorem exists_size_eq_mul_of_subnormal (hexp : x.exponentField = 0) (hpos : 0 < x.fraction) :
    ∃ y : Binary64, y.isNegative = x.isNegative ∧ y.exponentField < 2047 ∧
      y.size = x.size * 2 ^ (64 : Int) := by
  have h2 : (2 : ℚ) ≠ 0 := by decide
  obtain ⟨k, hk, hk'⟩ : ∃ k, 2 ^ k ≤ x.fraction ∧ x.fraction < 2 ^ (k + 1) :=
    ⟨_, Nat.log2_self_le (Nat.ne_of_gt hpos), Nat.lt_log2_self⟩
  have hk52 : k < 52 := (Nat.pow_lt_pow_iff_right (by decide)).mp (Nat.lt_of_le_of_lt hk x.fraction_lt)
  -- its highest bit is shifted to where the leading bit is implied
  have hsplit : 2 ^ k * 2 ^ (52 - k) = 2 ^ 52 := by
    rw [← Nat.pow_add, Nat.add_sub_cancel' (Nat.le_of_lt hk52)]
  have hrest : (x.fraction - 2 ^ k) * 2 ^ (52 - k) < 2 ^ 52 := by
    rw [← hsplit]
    refine Nat.mul_lt_mul_of_pos_right ?_ (Nat.two_pow_pos _)
    rw [Nat.pow_succ] at hk'
    omega
  obtain ⟨y, hneg, he, hfrac⟩ := exists_fields x.isNegative (show k + 13 < 2 ^ 11 by omega) hrest
  refine ⟨y, hneg, by omega, ?_⟩
  have hsplit : (2 : ℚ) ^ k * 2 ^ (52 - k) = 2 ^ 52 := by exact_mod_cast hsplit
  have hleft : (2 : ℚ) ^ (((k + 13 : Nat) : Int) - 1023) = 2 ^ k * 2 ^ (-1010 : Int) := by
    rw [← zpow_natCast, ← zpow_add₀ h2]
    congr 1
    push_cast
    ring
  have hright : (2 : ℚ) ^ (-1022 : Int) * 2 ^ (64 : Int) = 2 ^ 52 * 2 ^ (-1010 : Int) := by
    rw [← zpow_natCast, ← zpow_add₀ h2, ← zpow_add₀ h2]
    norm_num
  unfold size
  rw [he, hfrac, if_neg (by omega), if_pos hexp, hleft, mul_assoc, hright, Nat.cast_mul,
    Nat.cast_sub hk, Nat.cast_pow, Nat.cast_pow, Nat.cast_ofNat, ← hsplit]
  field_simp
  ring

/-- The size of the product, with the sign that the number has. -/
theorem exists_size_eq_mul (hx : x.inUnitInterval = true) : ∃ y : Binary64,
    y.isNegative = x.isNegative ∧ y.exponentField < 2047 ∧ y.size = x.size * 2 ^ (64 : Int) := by
  have hle := exponentField_le hx
  by_cases hexp : x.exponentField = 0
  · rcases Nat.eq_zero_or_pos x.fraction with h0 | hpos
    · refine ⟨x, rfl, by omega, ?_⟩
      unfold size
      rw [if_pos hexp, h0, Nat.cast_zero, zero_div, zero_mul, zero_mul]
    · exact exists_size_eq_mul_of_subnormal hexp hpos
  · obtain ⟨y, hneg, he, hfrac⟩ := exists_fields x.isNegative
      (show x.exponentField + 64 < 2 ^ 11 by omega) x.fraction_lt
    refine ⟨y, hneg, by omega, ?_⟩
    unfold size
    rw [he, hfrac, if_neg (by omega), if_neg hexp, mul_assoc, ← zpow_add₀ (by decide)]
    congr 2
    push_cast
    ring

/-- The product of a double of the unit interval with `2 ^ 64` is a double. -/
theorem exists_value_eq_mul (hx : x.inUnitInterval = true) : ∃ y : Binary64,
    y.isNaN = false ∧ y.isInfinite = false ∧ y.value = x.value * 2 ^ 64 := by
  obtain ⟨y, hneg, hexp, hsize⟩ := exists_size_eq_mul hx
  have hfinite : (y.exponentField == 2047) = false := beq_false_of_ne (Nat.ne_of_lt hexp)
  refine ⟨y, ?_, ?_, ?_⟩
  · rw [isNaN, hfinite, Bool.false_and]
  · rw [isInfinite, hfinite, Bool.false_and]
  · unfold value
    rw [hneg, hsize]
    split_ifs
    · exact (neg_mul _ _).symm
    · rfl

end Cohort.Binary64
