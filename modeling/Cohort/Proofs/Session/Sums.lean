import Mathlib
import Cohort.Proofs.Grouping.Counts
import Cohort.Proofs.Regroup.Values
import Cohort.Proofs.Session.Tallies

/-!
# Sums — what a stat adds up to over each group

`g.total values x` is the sum of the values of the documents of group `x`. The sums of a stat are
these totals modulo `2 ^ 64`, with 0 for group 0. Where every group is split into a range of groups
of its own, `Subdivides`, its total is that of the groups of the range.
-/

namespace Cohort

/-! ### Sums modulo `2 ^ 64` -/

theorem wrap64_wrap64_add (a b : Int) : wrap64 (wrap64 a + b) = wrap64 (a + b) :=
  Int.bmod_add_bmod

theorem wrap64_add_wrap64 (a b : Int) : wrap64 (a + wrap64 b) = wrap64 (a + b) := by
  rw [Int.add_comm, wrap64_wrap64_add, Int.add_comm]

/-- It is enough to reduce a sum at the end. -/
theorem wrap64_sum {ι : Type} (s : Finset ι) (f : ι → Int) :
    wrap64 (∑ i ∈ s, wrap64 (f i)) = wrap64 (∑ i ∈ s, f i) := by
  classical
  induction s using Finset.induction_on with
  | empty => rfl
  | insert i s hi ih =>
    rw [Finset.sum_insert hi, Finset.sum_insert hi, wrap64_wrap64_add, ← wrap64_add_wrap64, ih,
      wrap64_add_wrap64]

namespace Grouping

variable {g g' : Grouping} {values : ValueTable} {numDocs : Nat}

/-- The sum of the values of the documents of group `x`. -/
def total (g : Grouping) (values : ValueTable) (x : Nat) : Int := ∑ d ∈ g.docsIn x, values.valueOf d

/-- The total of a group, taken over the documents one after the other. -/
theorem total_eq (g : Grouping) (values : ValueTable) (x : Nat) : g.total values x =
    (((List.range g.len).filter fun d => g.groupOf d = x).map values.valueOf).sum := by
  unfold total
  rw [docsIn_eq]
  rfl

end Grouping

/-! ### The sums of a stat -/

section Loop

variable {f : Nat → Nat × Int} {x : Nat} {docs : List Nat} {sums : Array Int}

theorem size_addToSum (sums : Array Int) (p : Nat × Int) :
    (addToSum sums p).size = sums.size := by
  unfold addToSum
  split_ifs
  · rfl
  · exact Array.size_modify

theorem size_foldl_addToSum (f : Nat → Nat × Int) (docs : List Nat) (sums : Array Int) :
    (docs.foldl (fun sums d => addToSum sums (f d)) sums).size = sums.size := by
  induction docs generalizing sums with
  | nil => rfl
  | cons d docs ih => rw [List.foldl_cons, ih, size_addToSum]

/-- Group 0 has no sum. -/
theorem getElem?_addToSum_zero (sums : Array Int) (p : Nat × Int) :
    (addToSum sums p)[0]? = sums[0]? := by
  unfold addToSum
  split_ifs with h
  · rfl
  · rw [Array.getElem?_modify, if_neg h]

theorem getElem?_foldl_addToSum_zero (f : Nat → Nat × Int) (docs : List Nat) (sums : Array Int) :
    (docs.foldl (fun sums d => addToSum sums (f d)) sums)[0]? = sums[0]? := by
  induction docs generalizing sums with
  | nil => rfl
  | cons d docs ih => rw [List.foldl_cons, ih, getElem?_addToSum_zero]

/-- A value is added to the sum of its group and to no other. -/
theorem getElem?_addToSum {p : Nat × Int} {t : Int} (hx : x ≠ 0)
    (h : sums[x]? = some (wrap64 t)) :
    (addToSum sums p)[x]? = some (wrap64 (t + if p.1 = x then p.2 else 0)) := by
  unfold addToSum
  by_cases hp : p.1 = x
  · rw [if_neg (hp ▸ hx), if_pos hp, Array.getElem?_modify, if_pos hp, h, Option.map_some,
      wrap64_wrap64_add]
  · rw [if_neg hp, Int.add_zero]
    split_ifs
    · exact h
    · rw [Array.getElem?_modify, if_neg hp, h]

theorem getElem?_foldl_addToSum (hx : x ≠ 0) {t : Int} (h : sums[x]? = some (wrap64 t)) :
    (docs.foldl (fun sums d => addToSum sums (f d)) sums)[x]? =
      some (wrap64 (t + ((docs.filter fun d => (f d).1 = x).map fun d => (f d).2).sum)) := by
  induction docs generalizing sums t with
  | nil => simpa using h
  | cons d docs ih =>
    rw [List.foldl_cons, ih (getElem?_addToSum hx h), List.filter_cons]
    by_cases hd : (f d).1 = x
    · simp [hd, Int.add_assoc]
    · simp [hd]

end Loop

section Sums

variable {g g' : Grouping} {values : ValueTable} {numDocs chunk : Nat} {sums : List Int}

/-- What the sums of a stat are: one for every group, 0 for group 0, and else the total. -/
structure Sums (g : Grouping) (values : ValueTable) (sums : List Int) : Prop where
  length_eq : sums.length = g.numGroups
  zero : 0 < g.numGroups → sums[0]? = some 0
  total : ∀ x, 0 < x → x < g.numGroups → sums[x]? = some (wrap64 (g.total values x))

theorem exists_sums (chunk : Nat) (h : values.Covers g.len) :
    ∃ sums, sumByGroup? g chunk values = some sums ∧ Sums g values sums := by
  refine ⟨_, sumByGroup?_eq_foldl chunk h, ?_, fun hpos => ?_, fun x hx hlt => ?_⟩
  · rw [Array.length_toList, size_foldl_addToSum, Array.size_replicate]
  · rw [Array.getElem?_toList, getElem?_foldl_addToSum_zero, Array.getElem?_replicate, if_pos hpos]
  · have hstart : (Array.replicate g.numGroups (0 : Int))[x]? = some (wrap64 0) := by
      rw [Array.getElem?_replicate, if_pos hlt]
      rfl
    rw [Array.getElem?_toList, getElem?_foldl_addToSum (Nat.pos_iff_ne_zero.mp hx) hstart,
      Int.zero_add, Grouping.total_eq]

/-- The total of every group that there is, and of those that there are not. -/
theorem Sums.getD_eq (h : Sums g values sums) (hg : g.WellFormed numDocs) {x : Nat} (hx : 0 < x) :
    sums.getD x 0 = wrap64 (g.total values x) := by
  by_cases hlt : x < g.numGroups
  · rw [List.getD_eq_getElem?_getD, h.total x hx hlt]
    rfl
  · have hempty : g.docsIn x = ∅ := by
      refine Finset.eq_empty_iff_forall_notMem.mpr fun d hd => hlt ?_
      exact hg.lt_numGroups d x (Grouping.mem_docsIn.mp hd)
    have hlen : sums.length ≤ x := h.length_eq ▸ Nat.le_of_not_lt hlt
    unfold Grouping.total
    rw [List.getD_eq_default _ _ hlen, hempty]
    rfl

theorem Sums.eq_map (h : Sums g values sums) : sums = (List.range g.numGroups).map fun x =>
    if x ≠ 0 then wrap64 (g.total values x) else 0 := by
  refine List.ext_getElem? fun x => ?_
  by_cases hx : x < g.numGroups
  · rw [List.getElem?_map, List.getElem?_range hx, Option.map_some]
    split_ifs with h0
    · exact h.total x (by omega) hx
    · obtain rfl : x = 0 := by omega
      exact h.zero hx
  · have hx := Nat.le_of_not_lt hx
    rw [List.getElem?_eq_none (by rwa [h.length_eq]), List.getElem?_eq_none (by simpa using hx)]

/-- All totals together are the sum over the documents outside group 0. -/
theorem Grouping.sum_total (hg : g.WellFormed numDocs) :
    ∑ x ∈ Finset.range g.numGroups with x ≠ 0, g.total values x =
      ∑ d ∈ Finset.range numDocs with g.get? d ≠ some 0, values.valueOf d := by
  have hget : ∀ d ∈ Finset.range numDocs, g.get? d = some (g.groupOf d) := fun d hd =>
    get?_eq_groupOf (hg.len_eq.symm ▸ Finset.mem_range.mp hd)
  have hmaps : ∀ d ∈ ({d ∈ Finset.range numDocs | g.get? d ≠ some 0} : Finset Nat),
      g.groupOf d ∈ ({x ∈ Finset.range g.numGroups | x ≠ 0} : Finset Nat) := by
    intro d hd
    obtain ⟨hd, hne⟩ := Finset.mem_filter.mp hd
    have hlt : g.groupOf d < g.numGroups := hg.lt_numGroups d _ (hget d hd)
    refine Finset.mem_filter.mpr ⟨Finset.mem_range.mpr hlt, fun h0 => hne ?_⟩
    rw [hget d hd, h0]
  rw [← Finset.sum_fiberwise_of_maps_to hmaps]
  refine Finset.sum_congr rfl fun x hx => Finset.sum_congr ?_ fun _ _ => rfl
  have hx0 : x ≠ 0 := (Finset.mem_filter.mp hx).2
  rw [docsIn_eq, Finset.filter_filter, hg.len_eq]
  refine Finset.filter_congr fun d hd => ?_
  rw [hget d hd, ne_eq, Option.some_inj]
  constructor
  · rintro rfl
    exact ⟨hx0, rfl⟩
  · exact fun h => h.2

/-- So are all sums together, modulo `2 ^ 64`. -/
theorem Sums.wrap64_sum_eq (h : Sums g values sums) (hg : g.WellFormed numDocs) :
    wrap64 sums.sum =
      wrap64 (∑ d ∈ Finset.range numDocs with g.get? d ≠ some 0, values.valueOf d) := by
  have hsum : sums.sum = ∑ x ∈ Finset.range g.numGroups with x ≠ 0, wrap64 (g.total values x) := by
    rw [h.eq_map, Finset.sum_filter]
    rfl
  rw [hsum, wrap64_sum, Grouping.sum_total hg]

/-! ### Groups that are subdivided -/

/-- From `g` to `g'` every group was split into `size` groups of its own, and no document of it is
anywhere else. -/
def Grouping.Subdivides (size : Nat) (g g' : Grouping) : Prop :=
  ∀ d x, g.get? d = some x → ∃ k, 0 < k ∧ k ≤ size ∧ g'.get? d = some (composition x k size)

/-- The groups that group `x` is split into. -/
def parts (size x : Nat) : Finset Nat := Finset.Ioc ((x - 1) * size) (x * size)

/-- No group has a part of another one. -/
theorem composition_mem_parts_iff {size x y k : Nat} (hx : 0 < x) (hk : 0 < k) (hle : k ≤ size) :
    composition y k size ∈ parts size x ↔ y = x := by
  obtain ⟨x, rfl⟩ : ∃ z, x = z + 1 := ⟨x - 1, by omega⟩
  unfold composition parts
  rw [Finset.mem_Ioc, Nat.add_sub_cancel, Nat.succ_mul]
  cases y with
  | zero =>
    rw [if_pos (.inl rfl)]
    omega
  | succ y =>
    rw [if_neg (by omega), Nat.add_sub_cancel]
    rcases Nat.lt_trichotomy y x with h | rfl | h
    · have := Nat.mul_le_mul_right size h
      rw [Nat.succ_mul] at this
      omega
    · omega
    · have := Nat.mul_le_mul_right size h
      rw [Nat.succ_mul] at this
      omega

theorem Grouping.Subdivides.mem_parts_iff {size : Nat} (h : g.Subdivides size g')
    (hlen : g'.len = g.len) {x d : Nat} (hx : 0 < x) :
    g.get? d = some x ↔ ∃ y ∈ parts size x, g'.get? d = some y := by
  constructor
  · intro hd
    obtain ⟨k, hk, hle, hd'⟩ := h d x hd
    exact ⟨_, (composition_mem_parts_iff hx hk hle).mpr rfl, hd'⟩
  · rintro ⟨y, hy, hd'⟩
    obtain ⟨z, hz⟩ := get?_of_lt_len (hlen ▸ lt_len_of_get? hd')
    obtain ⟨k, hk, hle, hd⟩ := h d z hz
    obtain rfl := Option.some.inj (hd'.symm.trans hd)
    rw [hz, (composition_mem_parts_iff hx hk hle).mp hy]

/-- The total of a group is that of its parts together. -/
theorem Grouping.Subdivides.sum_total {size : Nat} (h : g.Subdivides size g') (hlen : g'.len = g.len)
    {x : Nat} (hx : 0 < x) : ∑ y ∈ parts size x, g'.total values y = g.total values x := by
  have hget : ∀ {d}, d ∈ Finset.range g.len → g'.get? d = some (g'.groupOf d) := fun hd =>
    get?_eq_groupOf (hlen.symm ▸ Finset.mem_range.mp hd)
  have hmaps : ∀ d ∈ g.docsIn x, g'.groupOf d ∈ parts size x := by
    intro d hd
    obtain ⟨y, hy, hd'⟩ := (h.mem_parts_iff hlen hx).mp (mem_docsIn.mp hd)
    have hd := hget (Finset.mem_filter.mp hd).1
    rwa [Option.some.inj (hd.symm.trans hd')]
  unfold total
  rw [← Finset.sum_fiberwise_of_maps_to hmaps]
  refine Finset.sum_congr rfl fun y hy => Finset.sum_congr (Finset.ext fun d => ?_) fun _ _ => rfl
  rw [Finset.mem_filter, mem_docsIn, mem_docsIn]
  constructor
  · intro hd'
    have hd := hget (Finset.mem_range.mpr (hlen ▸ lt_len_of_get? hd'))
    exact ⟨(h.mem_parts_iff hlen hx).mpr ⟨y, hy, hd'⟩, Option.some.inj (hd.symm.trans hd')⟩
  · rintro ⟨hd, rfl⟩
    exact hget (Finset.mem_range.mpr (lt_len_of_get? hd))

/-- The sums of the parts of a group add up to the sum of the group. -/
theorem Grouping.Subdivides.sums_eq {size : Nat} {sums' : List Int} (h : g.Subdivides size g')
    (hg : g.WellFormed numDocs) (hg' : g'.WellFormed numDocs) (hs : Sums g values sums)
    (hs' : Sums g' values sums') {x : Nat} (hx : 0 < x) :
    wrap64 (∑ y ∈ parts size x, sums'.getD y 0) = sums.getD x 0 := by
  have hparts : ∑ y ∈ parts size x, sums'.getD y 0 =
      ∑ y ∈ parts size x, wrap64 (g'.total values y) := by
    refine Finset.sum_congr rfl fun y hy => hs'.getD_eq hg' ?_
    have := (Finset.mem_Ioc.mp hy).1
    omega
  rw [hparts, wrap64_sum, h.sum_total (hg'.len_eq.trans hg.len_eq.symm) hx, hs.getD_eq hg hx]

end Sums

end Cohort
