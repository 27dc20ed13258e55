import Mathlib
import Cohort.Proofs.Bucket.Spans

/-!
# Labels — no two buckets, groups or cells get the same number

The intervals of a range are numbered without a gap, each with the values that it should have, and
the gutters come after them. Pairs are numbered row by row (`bijOn_rows`), both the buckets of each
old group and the cells of a grid, so that every number up to the highest one stands for one pair.
-/

namespace Cohort

/-! ### Rows -/

/-- A number tells its row and its place in the row. -/
theorem row_inj {q q' r r' w : Nat} (hr : r < w) (hr' : r' < w) (h : q * w + r = q' * w + r') :
    q = q' ∧ r = r' := by
  have hw : 0 < w := Nat.zero_lt_of_lt hr
  have hplace : ∀ {q r : Nat}, r < w → (q * w + r) / w = q ∧ (q * w + r) % w = r :=
    fun {q r} hr => (Nat.div_mod_unique hw).mpr ⟨by rw [Nat.add_comm, Nat.mul_comm], hr⟩
  have hleft := hplace (q := q) hr
  rw [h] at hleft
  have hright := hplace (q := q') hr'
  exact ⟨hleft.1.symm.trans hright.1, hleft.2.symm.trans hright.2⟩

/-- Numbering `t` rows of `w` places from 1 on, row by row. -/
theorem bijOn_rows (t w : Nat) :
    Set.BijOn (fun p : Nat × Nat => p.1 * w + p.2 + 1) (Set.Iio t ×ˢ Set.Iio w)
      (Set.Icc 1 (t * w)) := by
  refine ⟨?_, ?_, ?_⟩
  · rintro ⟨q, r⟩ ⟨hq, hr⟩
    exact ⟨Nat.le_add_left 1 _, row_le hq hr⟩
  · rintro ⟨q, r⟩ ⟨-, hr⟩ ⟨q', r'⟩ ⟨-, hr'⟩ heq
    obtain ⟨rfl, rfl⟩ := row_inj hr hr' (Nat.succ.inj heq)
    rfl
  · rintro c ⟨h1, hc⟩
    have hw : 0 < w := Nat.pos_of_mul_pos_left (Nat.lt_of_lt_of_le h1 hc)
    refine ⟨((c - 1) / w, (c - 1) % w), ⟨?_, Nat.mod_lt _ hw⟩, ?_⟩
    · exact (Nat.div_lt_iff_lt_mul hw).mpr (by omega)
    · show (c - 1) / w * w + (c - 1) % w + 1 = c
      rw [Nat.div_add_mod', Nat.sub_add_cancel h1]

/-- A numbering that always gives a number. -/
theorem bijOn_some {α β : Type} {f : α → Option β} {g : α → β} {s : Set α} {t : Set β}
    (h : Set.BijOn g s t) (hf : ∀ x ∈ s, f x = some (g x)) : Set.BijOn f s (some '' t) :=
  (((Option.some_injective β).injOn.bijOn_image).comp h).congr fun x hx => (hf x hx).symm

/-! ### Intervals -/

section Intervals

variable {min max width v : Int} {q : Nat}

/-- The values of interval `q`, counted from 0. -/
theorem interval_eq_iff (hw : 0 < width) (hlo : min ≤ v) :
    ((v - min) / width).toNat = q ↔ min + q * width ≤ v ∧ v < min + (q + 1) * width := by
  have h0 : 0 ≤ (v - min) / width := Int.ediv_nonneg (by omega) (by omega)
  have hle : (q : Int) ≤ (v - min) / width ↔ q * width ≤ v - min := Int.le_ediv_iff_mul_le hw
  have hlt : (v - min) / width < q + 1 ↔ v - min < (q + 1) * width := Int.ediv_lt_iff_lt_mul hw
  omega

/-- Every interval starts inside the range. -/
theorem interval_start_lt (hw : 0 < width) (hrange : min < max)
    (hq : q < intervalCount min max width) : min + q * width < max := by
  have h0 : 0 ≤ (max - 1 - min) / width := Int.ediv_nonneg (by omega) (by omega)
  have hle : (q : Int) ≤ (max - 1 - min) / width := by
    unfold intervalCount at hq
    omega
  rw [Int.le_ediv_iff_mul_le hw] at hle
  omega

theorem le_interval_start (min : Int) (q : Nat) (hw : 0 < width) : min ≤ min + q * width := by
  have := Int.mul_nonneg (Int.natCast_nonneg q) (Int.le_of_lt hw)
  omega

end Intervals

namespace IntervalBuckets

/-- The values in bucket `k`. -/
def valuesOf (b : IntervalBuckets) (k : Nat) : Set Int := {v | b.bucket? v = some k}

variable {b : IntervalBuckets} {k : Nat}

theorem bucket?_eq_some_iff {v : Int} : b.bucket? v = some k ↔
    (v < b.min ∧ b.below? = some k) ∨ (b.min ≤ v ∧ b.max ≤ v ∧ b.above? = some k) ∨
      (b.min ≤ v ∧ v < b.max ∧ b.inside v = k) := by
  by_cases hlo : v < b.min
  · simp [bucket?_of_lt hlo, hlo, Int.not_le.mpr hlo]
  rw [Int.not_lt] at hlo
  by_cases hhi : b.max ≤ v
  · simp [bucket?_of_ge hlo hhi, hlo, hhi, Int.not_lt.mpr hlo, Int.not_lt.mpr hhi]
  · rw [Int.not_le] at hhi
    simp [bucket?_of_mem hlo hhi, hlo, hhi, Int.not_lt.mpr hlo, Int.not_le.mpr hhi]

theorem Proper.valuesOf_inside (hb : b.Proper) (hk : 1 ≤ k) (hcount : k ≤ b.count) :
    b.valuesOf k = Set.Ico (b.min + (k - 1) * b.width) (Min.min (b.min + k * b.width) b.max) := by
  obtain ⟨q, rfl⟩ := Nat.exists_eq_add_of_le' hk
  have hcast : ((q + 1 : Nat) : Int) = q + 1 := rfl
  have hstart := le_interval_start b.min q hb.width_pos
  ext v
  rw [Set.mem_Ico, lt_min_iff, hcast, Int.add_sub_cancel]
  refine bucket?_eq_some_iff.trans ⟨?_, fun ⟨hle, hlt, hmax⟩ => ?_⟩
  · rintro (⟨-, h⟩ | ⟨-, -, h⟩ | ⟨hlo, hhi, h⟩)
    · have hlabel := below?_eq_some h
      split_ifs at hlabel
      omega
    · have hlabel := above?_eq_some h
      split_ifs at hlabel
      omega
    · have h := (interval_eq_iff hb.width_pos hlo).mp (Nat.succ.inj h)
      exact ⟨h.1, h.2, hhi⟩
  · have hlo : b.min ≤ v := Int.le_trans hstart hle
    have hq := (interval_eq_iff hb.width_pos hlo).mpr ⟨hle, hlt⟩
    exact .inr (.inr ⟨hlo, hmax, congrArg (· + 1) hq⟩)

theorem Proper.nonempty_valuesOf (hb : b.Proper) (hk : 1 ≤ k) (hcount : k ≤ b.count) :
    (b.valuesOf k).Nonempty := by
  rw [hb.valuesOf_inside hk hcount]
  obtain ⟨q, rfl⟩ := Nat.exists_eq_add_of_le' hk
  have hcast : ((q + 1 : Nat) : Int) = q + 1 := rfl
  rw [hcast, Int.add_sub_cancel, Set.nonempty_Ico, lt_min_iff]
  have hwidth := hb.width_pos
  refine ⟨?_, interval_start_lt hwidth hb.range (hb.count_eq ▸ hcount)⟩
  rw [Int.add_mul]
  omega

theorem below?_eq_some_iff (hfits : b.total ≤ maxId) :
    b.below? = some k ↔ k = if b.noGutters then 0 else b.count + 1 := by
  refine ⟨below?_eq_some, fun h => ?_⟩
  obtain ⟨i, hi⟩ := exists_below? hfits
  rw [hi, below?_eq_some hi, h]

theorem above?_eq_some_iff (hfits : b.total ≤ maxId) :
    b.above? = some k ↔ k = if b.noGutters then 0 else b.count + 2 := by
  refine ⟨above?_eq_some, fun h => ?_⟩
  obtain ⟨i, hi⟩ := exists_above? hfits
  rw [hi, above?_eq_some hi, h]

/-- The gutters come after the intervals; without them the values outside the range are in
bucket 0, which no value inside is. -/
theorem Proper.valuesOf_outside (hb : b.Proper) (hfits : b.total ≤ maxId) :
    if b.noGutters then b.valuesOf 0 = Set.Iio b.min ∪ Set.Ici b.max
    else b.valuesOf (b.count + 1) = Set.Iio b.min ∧ b.valuesOf (b.count + 2) = Set.Ici b.max := by
  have hrange := hb.range
  have hinside : ∀ v, b.min ≤ v → v < b.max → 1 ≤ b.inside v ∧ b.inside v ≤ b.count :=
    fun v hlo hhi => ⟨Nat.le_add_left 1 _, hb.inside_le_count hlo hhi⟩
  have hmem : ∀ v k, v ∈ b.valuesOf k ↔ _ := fun v k => bucket?_eq_some_iff
  simp only [below?_eq_some_iff hfits, above?_eq_some_iff hfits] at hmem
  split_ifs with hg
  · ext v
    have := hinside v
    rw [hmem, if_pos hg, if_pos hg, Set.mem_union, Set.mem_Iio, Set.mem_Ici]
    omega
  · constructor
    · ext v
      have := hinside v
      rw [hmem, if_neg hg, if_neg hg, Set.mem_Iio]
      omega
    · ext v
      have := hinside v
      rw [hmem, if_neg hg, if_neg hg, Set.mem_Ici]
      omega

end IntervalBuckets

/-! ### Composed groups -/

/-- Every pair of a group and a bucket has a composed group of its own. -/
theorem bijOn_compose? {numGroups total : Nat} (hmax : (numGroups - 1) * total ≤ maxId) :
    Set.BijOn (fun p : Nat × Nat => compose? p.1 p.2 total)
      (Set.Ico 1 numGroups ×ˢ Set.Icc 1 total) (some '' Set.Icc 1 ((numGroups - 1) * total)) := by
  -- group `g` fills row `g - 1`, with bucket 1 in its first place
  have hshift : Set.BijOn (fun p : Nat × Nat => (p.1 - 1, p.2 - 1))
      (Set.Ico 1 numGroups ×ˢ Set.Icc 1 total) (Set.Iio (numGroups - 1) ×ˢ Set.Iio total) := by
    refine ⟨?_, ?_, ?_⟩
    · rintro ⟨g, k⟩ ⟨⟨hg, hg'⟩, hk, hk'⟩
      simp only [Set.mem_prod, Set.mem_Iio] at *
      omega
    · rintro ⟨g, k⟩ ⟨⟨hg, -⟩, hk, -⟩ ⟨g', k'⟩ ⟨⟨hg', -⟩, hk', -⟩ heq
      simp only [Prod.mk.injEq] at *
      omega
    · rintro ⟨q, r⟩ ⟨hq, hr⟩
      simp only [Set.mem_Iio] at hq hr
      exact ⟨(q + 1, r + 1), ⟨⟨Nat.le_add_left 1 q, Nat.add_lt_of_lt_sub hq⟩,
        Nat.le_add_left 1 r, hr⟩, rfl⟩
  refine bijOn_some ((bijOn_rows _ total).comp hshift) ?_
  rintro ⟨g, k⟩ ⟨⟨hg, hg'⟩, hk, hk'⟩
  simp only at hg hg' hk hk'
  show compose? g k total = _
  rw [compose?_eq (Nat.le_pred_of_lt hg') hk' hmax, composition, if_neg (by omega)]
  refine congrArg some ?_
  show _ = (g - 1) * total + (k - 1) + 1
  omega

/-! ### Cells -/

/-- Every pair of indexes has a cell of its own. -/
theorem Grid.bijOn_cellAt? {g : Grid} (hfits : g.total ≤ maxId) :
    Set.BijOn (fun p : Nat × Nat => g.cellAt? p.1 p.2) (Set.Iio g.x.count ×ˢ Set.Iio g.y.count)
      (some '' Set.Icc 1 g.total) := by
  have hswap : Set.BijOn Prod.swap (Set.Iio g.x.count ×ˢ Set.Iio g.y.count)
      (Set.Iio g.y.count ×ˢ Set.Iio g.x.count) := by
    refine ⟨fun p hp => hp.symm, Prod.swap_injective.injOn, fun p hp => ⟨p.swap, hp.symm, ?_⟩⟩
    exact Prod.swap_swap p
  have hrows := (bijOn_rows g.y.count g.x.count).comp hswap
  rw [Nat.mul_comm] at hrows
  refine bijOn_some hrows ?_
  rintro ⟨i, j⟩ ⟨hi, hj⟩
  exact asId?_of_le (Nat.le_trans (Grid.cell_le_total hi hj) hfits)

namespace Axis

/-- The first index needs a value below the range; every other index has one. -/
theorem Proper.exists_index_eq_iff {a : Axis} (ha : a.Proper) (hmin : isInt64 a.min = true)
    (hmax : isInt64 a.max = true) {i : Nat} (hi : i < a.count) :
    (∃ v, isInt64 v = true ∧ a.index v = i) ↔ (i = 0 → -0x8000_0000_0000_0000 < a.min) := by
  simp only [isInt64, Bool.and_eq_true, decide_eq_true_eq] at *
  have hrange := ha.range
  have hcount := ha.count_eq
  constructor
  · rintro ⟨v, hv, hindex⟩ rfl
    by_contra hlow
    have hlo : a.min ≤ v := by omega
    by_cases hhi : v < a.max
    · have := ha.index_of_mem hlo hhi
      omega
    · have := index_of_ge hlo (Int.not_lt.mp hhi)
      omega
  · intro hlow
    -- the first index is below the range and the last one above it; the others start an interval
    by_cases h0 : i = 0
    · exact ⟨a.min - 1, by omega, h0 ▸ index_of_lt (by omega)⟩
    by_cases hlast : i = a.count - 1
    · exact ⟨a.max, hmax, hlast ▸ index_of_ge (by omega) (Int.le_refl _)⟩
    · obtain ⟨q, rfl⟩ := Nat.exists_eq_add_of_le' (Nat.pos_of_ne_zero h0)
      have hstart := le_interval_start a.min q ha.width_pos
      have hlt := interval_start_lt (q := q) ha.width_pos hrange (by omega)
      refine ⟨a.min + q * a.width, by omega, ?_⟩
      unfold index
      rw [if_neg (Int.not_lt.mpr hstart), if_neg (Int.not_le.mpr hlt)]
      refine congrArg (· + 1) ((interval_eq_iff ha.width_pos hstart).mpr ⟨Int.le_refl _, ?_⟩)
      have := ha.width_pos
      rw [Int.add_mul]
      omega

end Axis

/-- The intervals of a range hold the values that they should, none of them is empty, and the
gutters are none of them. The composed groups of all pairs of a group and a bucket are the numbers
up to the highest one, each of them once, and so are the cells of all pairs of indexes. Every index
of an axis has a value, but for the first one where no number lies below the range. -/
theorem labels_distinct :
    (∀ {min max width : Int} {noGutters : Bool} {b : IntervalBuckets},
      IntervalBuckets.make min max width noGutters = .ok b →
      ∀ {numGroups highest : Nat}, 2 ≤ numGroups →
      highestComposed numGroups b.total = .ok highest →
      (∀ k : Nat, 1 ≤ k → k ≤ b.count → (b.valuesOf k).Nonempty ∧
        b.valuesOf k = Set.Ico (min + (k - 1) * width) (Min.min (min + k * width) max)) ∧
      (if noGutters then b.valuesOf 0 = Set.Iio min ∪ Set.Ici max
        else b.valuesOf (b.count + 1) = Set.Iio min ∧ b.valuesOf (b.count + 2) = Set.Ici max) ∧
      Set.BijOn (fun p : Nat × Nat => compose? p.1 p.2 b.total)
        (Set.Ico 1 numGroups ×ˢ Set.Icc 1 b.total) (some '' Set.Icc 1 highest)) ∧
    (∀ {g : Grid} {highest : Nat}, g.maxGroup = .ok highest →
      Set.BijOn (fun p : Nat × Nat => g.cellAt? p.1 p.2)
        (Set.Iio g.x.count ×ˢ Set.Iio g.y.count) (some '' Set.Icc 1 highest)) ∧
    ∀ {name : String} {min max width : Int} {a : Axis}, Axis.make name min max width = .ok a →
      isInt64 min = true → isInt64 max = true → ∀ i < a.count,
      ((∃ v, isInt64 v = true ∧ a.index v = i) ↔ (i = 0 → -0x8000_0000_0000_0000 < min)) := by
  refine ⟨?_, ?_, ?_⟩
  · intro min max width noGutters b hmake numGroups highest hn hhighest
    have hb := IntervalBuckets.proper_of_make hmake
    obtain ⟨-, -, rfl⟩ := IntervalBuckets.make_ok hmake
    obtain ⟨rfl, hmax⟩ := highestComposed_ok hhighest
    refine ⟨fun k hk hcount => ⟨hb.nonempty_valuesOf hk hcount, hb.valuesOf_inside hk hcount⟩,
      hb.valuesOf_outside (total_le_maxId hn hmax), bijOn_compose? hmax⟩
  · intro g highest hhighest
    obtain ⟨rfl, hmax⟩ := Grid.maxGroup_ok hhighest
    exact Grid.bijOn_cellAt? hmax
  · intro name min max width a hmake hmin hmax i hi
    have ha := Axis.proper_of_make hmake
    obtain ⟨-, -, rfl⟩ := Axis.make_ok hmake
    exact ha.exists_index_eq_iff hmin hmax hi

/-- The last interval is a single value, with the gutters of the first group and then the first
bucket of the second one after it; nothing lies below a range that starts at the smallest number. -/
theorem labels_distinct_threes :
    (IntervalBuckets.valuesOf ⟨0, 10, 3, 4, false⟩ 4 = Set.Ico 9 10 ∧
      IntervalBuckets.valuesOf ⟨0, 10, 3, 4, false⟩ 5 = Set.Iio 0 ∧
      Set.BijOn (fun p : Nat × Nat => compose? p.1 p.2 6) (Set.Ico 1 3 ×ˢ Set.Icc 1 6)
        (some '' Set.Icc 1 12)) ∧
    Set.BijOn (fun p : Nat × Nat => Grid.cellAt? ⟨⟨0, 10, 5, 4⟩, ⟨0, 10, 3, 6⟩⟩ p.1 p.2)
      (Set.Iio 4 ×ˢ Set.Iio 6) (some '' Set.Icc 1 24) ∧
    ¬ ∃ v, isInt64 v = true ∧
      Axis.index ⟨-0x8000_0000_0000_0000, 0, 0x4000_0000_0000_0000, 4⟩ v = 0 := by
  obtain ⟨hbuckets, hcells, haxes⟩ := labels_distinct
  have hmake : IntervalBuckets.make 0 10 3 false = .ok ⟨0, 10, 3, 4, false⟩ := rfl
  obtain ⟨hinside, hgutters, hgroups⟩ :=
    hbuckets hmake (show 2 ≤ 3 by decide) (show highestComposed 3 6 = .ok 12 from rfl)
  refine ⟨⟨(hinside 4 (by decide) (by decide)).2, hgutters.1, hgroups⟩, hcells rfl, fun h => ?_⟩
  have haxis : Axis.make "x" (-0x8000_0000_0000_0000) 0 0x4000_0000_0000_0000 =
      .ok ⟨-0x8000_0000_0000_0000, 0, 0x4000_0000_0000_0000, 4⟩ := rfl
  exact absurd ((haxes haxis rfl rfl 0 (by decide)).mp h rfl) (by decide)

end Cohort
