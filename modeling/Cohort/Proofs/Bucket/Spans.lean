import Mathlib.Tactic.Choose
import Cohort.Proofs.Bucket

/-!
# Spans — what the values between two ends have in common

`Shares f lo hi o`: `o` is the label that `f` gives to all values from `lo` to `hi`, or none if it
tells two of them apart. Interval buckets and axes look at the ends only, and find just that: inside
the range labels grow with the value, and a span that reaches over an end of the range has values on
both sides of it, with labels that differ.
-/

namespace Cohort

/-- The values from `lo` to `hi`. -/
def Span (lo hi v : Int) : Prop := lo ≤ v ∧ v ≤ hi

/-- What `f` makes of the values from `lo` to `hi`: one label for all of them, or more than one. -/
structure Shares (f : Int → Nat) (lo hi : Int) (o : Option Nat) : Prop where
  some_iff : ∀ i, o = some i ↔ ∀ v, Span lo hi v → f v = i
  none_iff : o = none ↔ ∃ v w, Span lo hi v ∧ Span lo hi w ∧ f v ≠ f w

variable {lo hi : Int}

/-- A span that is not empty has either one label or several, so one direction of each is enough. -/
theorem shares_of {f : Int → Nat} {o : Option Nat} (hle : lo ≤ hi)
    (hsome : ∀ i, o = some i → ∀ v, Span lo hi v → f v = i)
    (hnone : o = none → ∃ v w, Span lo hi v ∧ Span lo hi w ∧ f v ≠ f w) :
    Shares f lo hi o := by
  have hlo : Span lo hi lo := ⟨Int.le_refl lo, hle⟩
  refine ⟨fun i => ⟨hsome i, fun hall => ?_⟩, hnone, ?_⟩
  · cases o with
    | none =>
      obtain ⟨v, w, hv, hw, hne⟩ := hnone rfl
      exact absurd ((hall v hv).trans (hall w hw).symm) hne
    | some j =>
      have hj : f lo = j := hsome j rfl lo hlo
      rw [← hj, hall lo hlo]
  · rintro ⟨v, w, hv, hw, hne⟩
    cases o with
    | none => rfl
    | some j =>
      have hj := hsome j rfl
      exact absurd ((hj v hv).trans (hj w hw).symm) hne

/-! ### Interval buckets -/

namespace IntervalBuckets

variable {b : IntervalBuckets} {v : Int}

theorem Proper.inside_le_count (hb : b.Proper) (hlo : b.min ≤ v) (hhi : v < b.max) :
    b.inside v ≤ b.count := by
  have h := interval_lt_count hb.width_pos hlo hhi
  rw [hb.count_eq]
  exact h

/-- The bucket below the range is none of those inside. -/
theorem Proper.below?_ne_inside (hb : b.Proper) (hlo : b.min ≤ v) (hhi : v < b.max) :
    b.below? ≠ some (b.inside v) := by
  intro h
  have hle := hb.inside_le_count hlo hhi
  have hpos : 1 ≤ b.inside v := Nat.le_add_left 1 _
  have hi := below?_eq_some h
  split_ifs at hi <;> omega

/-- The bucket from the end of the range on is none of those inside. -/
theorem Proper.above?_ne_inside (hb : b.Proper) (hlo : b.min ≤ v) (hhi : v < b.max) :
    b.above? ≠ some (b.inside v) := by
  intro h
  have hle := hb.inside_le_count hlo hhi
  have hpos : 1 ≤ b.inside v := Nat.le_add_left 1 _
  have hi := above?_eq_some h
  split_ifs at hi <;> omega

/-- A span without a common bucket has values of two buckets: its ends, or an end below the range
and the first value of the range. -/
theorem Proper.exists_ne_of_common? (hb : b.Proper) (hle : lo ≤ hi)
    (h : b.common? lo hi = some none) :
    ∃ v w, Span lo hi v ∧ Span lo hi w ∧ b.bucket? v ≠ b.bucket? w := by
  have hlo : Span lo hi lo := ⟨Int.le_refl lo, hle⟩
  have hhi : Span lo hi hi := ⟨hle, Int.le_refl hi⟩
  have hrange := hb.range
  unfold common? at h
  split_ifs at h with hempty hinside hsame hbelow habove
  · omega
  · cases h
  · simp only [Bool.and_eq_true, decide_eq_true_eq] at hinside
    refine ⟨lo, hi, hlo, hhi, ?_⟩
    rw [bucket?_of_mem hinside.1 (by omega), bucket?_of_mem (by omega) hinside.2]
    exact fun heq => hsame (Option.some.inj heq)
  · simp at h
  · simp at h
  · simp only [Bool.and_eq_true, decide_eq_true_eq, not_and, Int.not_lt] at hinside
    by_cases hstart : lo < b.min
    · refine ⟨lo, b.min, hlo, ⟨by omega, by omega⟩, ?_⟩
      rw [bucket?_of_lt hstart, bucket?_of_mem (Int.le_refl _) hrange]
      exact hb.below?_ne_inside (Int.le_refl _) hrange
    · have hend : b.max ≤ hi := hinside (by omega)
      refine ⟨hi, lo, hhi, hlo, ?_⟩
      rw [bucket?_of_ge (by omega) hend, bucket?_of_mem (by omega) (by omega)]
      exact hb.above?_ne_inside (by omega) (by omega)

end IntervalBuckets

/-! ### Axes -/

namespace Axis

variable {a : Axis} {v : Int}

theorem index_of_lt (h : v < a.min) : a.index v = 0 := if_pos h

theorem index_of_ge (h : a.min ≤ v) (hmax : a.max ≤ v) : a.index v = a.count - 1 := by
  unfold index
  rw [if_neg (Int.not_lt.mpr h), if_pos hmax]

/-- Inside the range no index is the first or the last. -/
theorem Proper.index_of_mem (ha : a.Proper) (h : a.min ≤ v) (hmax : v < a.max) :
    0 < a.index v ∧ a.index v < a.count - 1 := by
  have hlt := interval_lt_count ha.width_pos h hmax
  have hcount := ha.count_eq
  unfold index
  rw [if_neg (Int.not_lt.mpr h), if_neg (Int.not_le.mpr hmax)]
  omega

/-- A span without a common index has different ones at its ends. -/
theorem Proper.index_ne_of_common? (ha : a.Proper) (hle : lo ≤ hi) (h : a.common? lo hi = none) :
    a.index lo ≠ a.index hi := by
  have hrange := ha.range
  have hcount := ha.count_eq
  unfold common? at h
  split_ifs at h with hempty hside hsame
  · omega
  · exact hsame
  · simp only [Bool.or_eq_true, Bool.and_eq_true, decide_eq_true_eq, not_or, not_and,
      Int.not_lt, Int.not_le] at hside
    obtain ⟨⟨hinside, hbelow⟩, habove⟩ := hside
    by_cases hstart : lo < a.min
    · have hzero := index_of_lt hstart
      by_cases hend : hi < a.max
      · have := ha.index_of_mem hbelow hend
        omega
      · have := index_of_ge hbelow (Int.not_lt.mp hend)
        omega
    · have hend : a.max ≤ hi := hinside (by omega)
      have hlast := index_of_ge hbelow hend
      have := ha.index_of_mem (Int.not_lt.mp hstart) habove
      omega

end Axis

/-- The bucket that a span of values has in common is read off its ends, and is right about all
values in between: it is given just if every value of the span has it, and missing just if two of
them differ, while all buckets are group ids. The same is true of the index on an axis. -/
theorem shares_common? (hle : lo ≤ hi) (min max width : Int) :
    (∀ noGutters b, IntervalBuckets.make min max width noGutters = .ok b → b.total ≤ maxId →
      ∃ bucket : Int → Nat, (∀ v, b.bucket? v = some (bucket v)) ∧
        ∃ o, b.common? lo hi = some o ∧ Shares bucket lo hi o) ∧
    ∀ name a, Axis.make name min max width = .ok a → Shares a.index lo hi (a.common? lo hi) := by
  refine ⟨fun noGutters b hmake hfits => ?_, fun name a hmake => ?_⟩
  · have hb := IntervalBuckets.proper_of_make hmake
    choose bucket hbucket using IntervalBuckets.exists_bucket? hfits
    obtain ⟨o, ho⟩ := IntervalBuckets.exists_common? hfits lo hi
    refine ⟨bucket, hbucket, o, ho, shares_of hle (fun i hi' v hv => ?_) fun hnone => ?_⟩
    · rw [hi'] at ho
      have hv := hb.bucket?_of_common? ho hv.1 hv.2
      exact Option.some.inj ((hbucket v).symm.trans hv)
    · rw [hnone] at ho
      obtain ⟨v, w, hv, hw, hne⟩ := hb.exists_ne_of_common? hle ho
      refine ⟨v, w, hv, hw, fun heq => hne ?_⟩
      rw [hbucket, hbucket, heq]
  · have ha := Axis.proper_of_make hmake
    refine shares_of hle (fun i hi' v hv => ha.index_eq_of_common? hi' hv.1 hv.2) fun hnone => ?_
    exact ⟨lo, hi, ⟨Int.le_refl lo, hle⟩, ⟨hle, Int.le_refl hi⟩, ha.index_ne_of_common? hle hnone⟩

/-- Both ends of the first span lie outside the range and share bucket 0, but values between them
do not; the second span is a whole interval. -/
theorem shares_common?_fives :
    (∃ bucket : Int → Nat,
      (∀ v, IntervalBuckets.bucket? ⟨0, 10, 5, 2, true⟩ v = some (bucket v)) ∧
      bucket (-1) = bucket 10 ∧
      ∃ v w, Span (-1) 10 v ∧ Span (-1) 10 w ∧ bucket v ≠ bucket w) ∧
    ∀ v, Span 5 9 v → Axis.index ⟨0, 10, 5, 4⟩ v = 2 := by
  obtain ⟨hbuckets, -⟩ := shares_common? (show (-1 : Int) ≤ 10 by decide) 0 10 5
  obtain ⟨bucket, hbucket, o, ho, hshares⟩ := hbuckets true ⟨0, 10, 5, 2, true⟩ rfl (by decide)
  obtain ⟨-, haxis⟩ := shares_common? (show (5 : Int) ≤ 9 by decide) 0 10 5
  have hboth : some (bucket (-1)) = some (bucket 10) := by
    rw [← hbucket, ← hbucket]
    rfl
  refine ⟨⟨bucket, hbucket, Option.some.inj hboth, hshares.none_iff.mp ?_⟩, ?_⟩
  · exact (Option.some.inj ho).symm
  · exact ((haxis "x" ⟨0, 10, 5, 4⟩ rfl).some_iff 2).mp rfl

end Cohort
