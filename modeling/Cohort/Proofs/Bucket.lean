import Mathlib.Tactic.SplitIfs
import Cohort.Bucket.Grid
import Cohort.Proofs.Outcome

/-!
# Buckets — every label is within the bound that room is made for

Buckets and cells that passed their checks have positive widths and ranges that are not empty. The
bucket of a value is at most the number of buckets, a composed group at most the highest one, and a
cell at most the number of cells. Where that many are group ids, every label is one. Labels grow
with the value inside a range, so what the bounds of a table share is shared by all its values.
-/

namespace Cohort

theorem requireRange_ok {axis : String} {min max width : Int} {u : Unit}
    (h : requireRange axis min max width = .ok u) : 0 < width ∧ min < max := by
  obtain ⟨hwidth, h⟩ := require_bind_ok h
  have hrange := require_ok h
  simp only [decide_eq_true_eq] at hwidth hrange
  exact ⟨hwidth, hrange⟩

theorem requireRange_error {axis : String} {min max width : Int} {e : Error}
    (h : requireRange axis min max width = .error e) : e.IsArgumentOrMemory := by
  rcases error_of_bind h with h | ⟨_, -, h⟩ <;> rw [require_error h] <;> trivial

/-- Intervals are numbered in ascending order. -/
theorem interval_mono {min width v v' : Int} (hw : 0 < width) (h : v ≤ v') :
    ((v - min) / width).toNat ≤ ((v' - min) / width).toNat :=
  Int.toNat_le_toNat (Int.ediv_le_ediv hw (by omega))

/-- The interval of a value inside the range is one of those counted. -/
theorem interval_lt_count {min max width v : Int} (hw : 0 < width) (hlo : min ≤ v)
    (hhi : v < max) : ((v - min) / width).toNat + 1 ≤ intervalCount min max width := by
  have h0 : 0 ≤ (v - min) / width := Int.ediv_nonneg (by omega) (by omega)
  have h1 : (v - min) / width ≤ (max - 1 - min) / width :=
    Int.ediv_le_ediv hw (by omega)
  unfold intervalCount
  omega

/-- A row of `w` numbers ends where the next one starts. -/
theorem row_le {q t r w : Nat} (hq : q < t) (hr : r ≤ w) : q * w + r ≤ t * w :=
  calc q * w + r ≤ q * w + w := Nat.add_le_add_left hr _
    _ = (q + 1) * w := (Nat.succ_mul q w).symm
    _ ≤ t * w := Nat.mul_le_mul_right w hq

/-! ### Interval buckets -/

namespace IntervalBuckets

/-- What `make` guarantees. -/
structure Proper (b : IntervalBuckets) : Prop where
  width_pos : 0 < b.width
  range : b.min < b.max
  count_eq : b.count = intervalCount b.min b.max b.width

theorem make_ok {min max width : Int} {noGutters : Bool} {b : IntervalBuckets}
    (h : make min max width noGutters = .ok b) :
    0 < width ∧ min < max ∧ b = ⟨min, max, width, intervalCount min max width, noGutters⟩ := by
  obtain ⟨_, hrange, h⟩ := exists_of_bind_ok h
  obtain ⟨-, h⟩ := require_bind_ok h
  cases h
  obtain ⟨hwidth, hrange⟩ := requireRange_ok hrange
  exact ⟨hwidth, hrange, rfl⟩

theorem proper_of_make {min max width : Int} {noGutters : Bool} {b : IntervalBuckets}
    (h : make min max width noGutters = .ok b) : b.Proper := by
  obtain ⟨hwidth, hrange, rfl⟩ := make_ok h
  exact ⟨hwidth, hrange, rfl⟩

theorem make_error {min max width : Int} {noGutters : Bool} {e : Error}
    (h : make min max width noGutters = .error e) : e.IsArgumentOrMemory := by
  rcases error_of_bind h with h | ⟨_, -, h⟩
  · exact requireRange_error h
  · rcases error_of_bind h with h | ⟨_, -, h⟩
    · rw [require_error h]
      trivial
    · cases h

variable {b : IntervalBuckets} {v : Int} {i : Nat}

theorem below?_eq_some (h : b.below? = some i) : i = if b.noGutters then 0 else b.count + 1 := by
  unfold below? at h
  split_ifs at h ⊢
  · exact (Option.some.inj h).symm
  · exact (asId?_eq_some.mp h).2.symm

theorem above?_eq_some (h : b.above? = some i) : i = if b.noGutters then 0 else b.count + 2 := by
  unfold above? at h
  split_ifs at h ⊢
  · exact (Option.some.inj h).symm
  · exact (asId?_eq_some.mp h).2.symm

theorem below?_le_total (h : b.below? = some i) : i ≤ b.total := by
  have hi := below?_eq_some h
  unfold total
  split_ifs at hi ⊢ <;> omega

theorem above?_le_total (h : b.above? = some i) : i ≤ b.total := by
  have hi := above?_eq_some h
  unfold total
  split_ifs at hi ⊢ <;> omega

theorem Proper.inside_le_total (hb : b.Proper) (hlo : b.min ≤ v) (hhi : v < b.max) :
    b.inside v ≤ b.total := by
  have h := interval_lt_count hb.width_pos hlo hhi
  unfold inside total
  rw [hb.count_eq]
  split_ifs <;> omega

theorem Proper.bucket?_le_total (hb : b.Proper) (h : b.bucket? v = some i) : i ≤ b.total := by
  unfold bucket? at h
  split_ifs at h with hlo hhi
  · exact below?_le_total h
  · exact above?_le_total h
  · cases h
    exact hb.inside_le_total (by omega) (by omega)

theorem Proper.common?_le_total (hb : b.Proper) {lo hi : Int}
    (h : b.common? lo hi = some (some i)) : i ≤ b.total := by
  unfold common? at h
  split_ifs at h with h1 h2 h3
  · cases h
  · cases h
    simp only [Bool.and_eq_true, decide_eq_true_eq] at h2
    exact hb.inside_le_total h2.1 (by omega)
  · cases h
  · obtain ⟨j, hj, he⟩ := Option.map_eq_some_iff.mp h
    cases he
    exact below?_le_total hj
  · obtain ⟨j, hj, he⟩ := Option.map_eq_some_iff.mp h
    cases he
    exact above?_le_total hj
  · cases h

theorem bucket?_of_lt (h : v < b.min) : b.bucket? v = b.below? := if_pos h

theorem bucket?_of_ge (h : b.min ≤ v) (hmax : b.max ≤ v) : b.bucket? v = b.above? := by
  unfold bucket?
  rw [if_neg (Int.not_lt.mpr h), if_pos hmax]

theorem bucket?_of_mem (h : b.min ≤ v) (hmax : v < b.max) : b.bucket? v = some (b.inside v) := by
  unfold bucket?
  rw [if_neg (Int.not_lt.mpr h), if_neg (Int.not_le.mpr hmax)]

/-- The bucket that is common to a span of values is the bucket of each of them. -/
theorem Proper.bucket?_of_common? (hb : b.Proper) {lo hi : Int}
    (h : b.common? lo hi = some (some i)) (hlo : lo ≤ v) (hhi : v ≤ hi) :
    b.bucket? v = some i := by
  unfold common? at h
  split_ifs at h with hempty hinside hsame hbelow habove
  · cases h
  · simp only [Bool.and_eq_true, decide_eq_true_eq] at hinside
    have h1 : b.inside lo ≤ b.inside v := Nat.succ_le_succ (interval_mono hb.width_pos hlo)
    have h2 : b.inside v ≤ b.inside hi := Nat.succ_le_succ (interval_mono hb.width_pos hhi)
    cases h
    rw [bucket?_of_mem (by omega) (by omega), show b.inside v = b.inside lo by omega]
  · cases h
  · obtain ⟨j, hj, he⟩ := Option.map_eq_some_iff.mp h
    cases he
    rw [bucket?_of_lt (by omega), hj]
  · have hrange := hb.range
    obtain ⟨j, hj, he⟩ := Option.map_eq_some_iff.mp h
    cases he
    rw [bucket?_of_ge (by omega) (by omega), hj]
  · cases h

theorem exists_below? (h : b.total ≤ maxId) : ∃ i, b.below? = some i := by
  unfold total at h
  unfold below?
  split_ifs at h ⊢
  · exact ⟨0, rfl⟩
  · exact ⟨_, asId?_of_le (by omega)⟩

theorem exists_above? (h : b.total ≤ maxId) : ∃ i, b.above? = some i := by
  unfold total at h
  unfold above?
  split_ifs at h ⊢
  · exact ⟨0, rfl⟩
  · exact ⟨_, asId?_of_le h⟩

/-- Every value has a bucket, also in the gutters. -/
theorem exists_bucket? (h : b.total ≤ maxId) (v : Int) : ∃ i, b.bucket? v = some i := by
  unfold bucket?
  split_ifs
  · exact exists_below? h
  · exact exists_above? h
  · exact ⟨_, rfl⟩

theorem exists_common? (h : b.total ≤ maxId) (lo hi : Int) : ∃ o, b.common? lo hi = some o := by
  unfold common?
  split_ifs
  · exact ⟨_, rfl⟩
  · exact ⟨_, rfl⟩
  · exact ⟨_, rfl⟩
  · obtain ⟨i, hi⟩ := exists_below? h
    exact ⟨_, by rw [hi, Option.map_some]⟩
  · obtain ⟨i, hi⟩ := exists_above? h
    exact ⟨_, by rw [hi, Option.map_some]⟩
  · exact ⟨_, rfl⟩

end IntervalBuckets

/-! ### Composed groups -/

theorem highestComposed_ok {n total highest : Nat} (h : highestComposed n total = .ok highest) :
    highest = (n - 1) * total ∧ highest ≤ maxId := by
  obtain ⟨hmax, h⟩ := require_bind_ok h
  simp only [decide_eq_true_eq] at hmax
  cases h
  exact ⟨rfl, hmax⟩

theorem highestComposed_error {n total : Nat} {e : Error}
    (h : highestComposed n total = .error e) : e.IsArgumentOrMemory := by
  rcases error_of_bind h with h | ⟨_, -, h⟩
  · rw [require_error h]
    trivial
  · cases h

/-- The composed group, were there no bound on groups. -/
def composition (x bucket total : Nat) : Nat :=
  if x = 0 ∨ bucket = 0 then 0 else (x - 1) * total + bucket

/-- With more than one group, the buckets of each must be group ids themselves. -/
theorem total_le_maxId {n total : Nat} (hn : 1 < n) (hmax : (n - 1) * total ≤ maxId) :
    total ≤ maxId :=
  Nat.le_trans (Nat.le_mul_of_pos_left total (by omega)) hmax

variable {x x' bucket total top : Nat}

theorem composition_le (hx : x ≤ top) (hb : bucket ≤ total) :
    composition x bucket total ≤ top * total := by
  unfold composition
  split_ifs with h0
  · exact Nat.zero_le _
  · exact row_le (by omega) hb

theorem composition_mono (hx : x ≤ x') :
    composition x bucket total ≤ composition x' bucket total := by
  unfold composition
  split_ifs with h0 h1
  · exact Nat.zero_le _
  · exact Nat.zero_le _
  · omega
  · exact Nat.add_le_add_right (Nat.mul_le_mul_right total (by omega)) bucket

/-- Below the bound that `highestComposed` checks, composing does not wrap around. -/
theorem compose?_eq (hx : x ≤ top) (hb : bucket ≤ total) (hmax : top * total ≤ maxId) :
    compose? x bucket total = some (composition x bucket total) := by
  have hle := composition_le hx hb
  unfold composition at hle ⊢
  unfold compose?
  by_cases h0 : x = 0 ∨ bucket = 0
  · rw [if_pos h0, if_pos (by simpa using h0)]
  · rw [if_neg h0] at hle ⊢
    have hlt : (x - 1) * total + bucket < halfWordBound := by
      unfold maxId at hmax
      have : 0 < halfWordBound := by decide
      omega
    have hword : (x - 1) * total + bucket < wordBound :=
      Nat.lt_trans hlt (by decide)
    rw [if_neg (by simpa using h0)]
    simp only [if_pos hword, Nat.mod_eq_of_lt hlt]

/-! ### Grids -/

namespace Axis

/-- What `make` guarantees. -/
structure Proper (a : Axis) : Prop where
  width_pos : 0 < a.width
  range : a.min < a.max
  count_eq : a.count = intervalCount a.min a.max a.width + 2

theorem make_ok {name : String} {min max width : Int} {a : Axis}
    (h : make name min max width = .ok a) :
    0 < width ∧ min < max ∧ a = ⟨min, max, width, intervalCount min max width + 2⟩ := by
  obtain ⟨_, hrange, h⟩ := exists_of_bind_ok h
  obtain ⟨-, h⟩ := require_bind_ok h
  cases h
  obtain ⟨hwidth, hrange⟩ := requireRange_ok hrange
  exact ⟨hwidth, hrange, rfl⟩

theorem proper_of_make {name : String} {min max width : Int} {a : Axis}
    (h : make name min max width = .ok a) : a.Proper := by
  obtain ⟨hwidth, hrange, rfl⟩ := make_ok h
  exact ⟨hwidth, hrange, rfl⟩

theorem make_error {name : String} {min max width : Int} {e : Error}
    (h : make name min max width = .error e) : e.IsArgumentOrMemory := by
  rcases error_of_bind h with h | ⟨_, -, h⟩
  · exact requireRange_error h
  · rcases error_of_bind h with h | ⟨_, -, h⟩
    · rw [require_error h]
      trivial
    · cases h

theorem Proper.index_lt {a : Axis} (ha : a.Proper) (v : Int) : a.index v < a.count := by
  have hc := ha.count_eq
  unfold index
  split_ifs with hlo hhi
  · omega
  · omega
  · have := interval_lt_count ha.width_pos (show a.min ≤ v by omega) (show v < a.max by omega)
    omega

theorem index_of_common? {a : Axis} {lo hi : Int} {i : Nat} (h : a.common? lo hi = some i) :
    i = a.index lo := by
  unfold common? at h
  split_ifs at h
  exact (Option.some.inj h).symm

/-- Indexes grow with the value. -/
theorem Proper.index_mono {a : Axis} (ha : a.Proper) {v v' : Int} (h : v ≤ v') :
    a.index v ≤ a.index v' := by
  have hrange := ha.range
  have hlt := ha.index_lt v
  unfold index at hlt ⊢
  split_ifs at hlt ⊢ with h1 h2 h3 h4 h5
  · exact Nat.le_refl _
  · exact Nat.zero_le _
  · exact Nat.zero_le _
  · omega
  · exact Nat.le_refl _
  · omega
  · omega
  · omega
  · exact Nat.succ_le_succ (interval_mono ha.width_pos h)

/-- The index that is common to a span of values is the index of each of them. -/
theorem Proper.index_eq_of_common? {a : Axis} (ha : a.Proper) {lo hi v : Int} {i : Nat}
    (h : a.common? lo hi = some i) (hlo : lo ≤ v) (hhi : v ≤ hi) : a.index v = i := by
  have hends : a.index lo = a.index hi ∧ a.index lo = i := by
    unfold common? at h
    split_ifs at h with _ _ hsame
    exact ⟨hsame, Option.some.inj h⟩
  have h1 := ha.index_mono hlo
  have h2 := ha.index_mono hhi
  omega

end Axis

namespace Grid

variable {g : Grid}

theorem maxGroup_ok {highest : Nat} (h : g.maxGroup = .ok highest) :
    highest = g.total ∧ g.total ≤ maxId := by
  obtain ⟨hmax, h⟩ := require_bind_ok h
  simp only [decide_eq_true_eq] at hmax
  cases h
  exact ⟨rfl, hmax⟩

theorem maxGroup_error {e : Error} (h : g.maxGroup = .error e) : e.IsArgumentOrMemory := by
  rcases error_of_bind h with h | ⟨_, -, h⟩
  · rw [require_error h]
    trivial
  · cases h

theorem cell_le_total {i j : Nat} (hi : i < g.x.count) (hj : j < g.y.count) :
    j * g.x.count + i + 1 ≤ g.total :=
  calc j * g.x.count + (i + 1) ≤ g.y.count * g.x.count := row_le hj hi
    _ = g.total := Nat.mul_comm _ _

/-- Cells are numbered up to the number of cells. -/
theorem cell?_le_total (hx : g.x.Proper) (hy : g.y.Proper) {x y : Int} {c : Nat}
    (h : g.cell? x y = some c) : c ≤ g.total := by
  rw [← (asId?_eq_some.mp h).2]
  exact cell_le_total (hx.index_lt x) (hy.index_lt y)

theorem exists_cell? (hx : g.x.Proper) (hy : g.y.Proper) (h : g.total ≤ maxId) (x y : Int) :
    ∃ c, g.cell? x y = some c :=
  ⟨_, asId?_of_le (Nat.le_trans (cell_le_total (hx.index_lt x) (hy.index_lt y)) h)⟩

end Grid

end Cohort
