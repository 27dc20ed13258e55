import Mathlib.Algebra.BigOperators.Group.Finset.Basic
import Mathlib.Algebra.GroupWithZero.Nat
import Mathlib.Algebra.Order.BigOperators.Group.Finset
import Cohort.Proofs.Meaning

/-!
# Counts — how many documents a group has

`docsIn g x` are the documents of group `x`. Both ways of counting them, one group or all at once,
count every document where it is; where all groups are below the number of groups, no document is
left out.
-/

namespace Cohort.Grouping

variable {g : Grouping} {numDocs : Nat}

/-- The documents of group `x`. -/
def docsIn (g : Grouping) (x : Nat) : Finset Nat :=
  {d ∈ Finset.range g.len | g.get? d = some x}

theorem mem_docsIn {d x : Nat} : d ∈ g.docsIn x ↔ g.get? d = some x := by
  unfold docsIn
  rw [Finset.mem_filter, Finset.mem_range]
  exact ⟨fun h => h.2, fun h => ⟨lt_len_of_get? h, h⟩⟩

theorem docsIn_eq (g : Grouping) (x : Nat) :
    g.docsIn x = {d ∈ Finset.range g.len | g.groupOf d = x} := by
  refine Finset.filter_congr fun d hd => ?_
  rw [get?_eq_groupOf (Finset.mem_range.mp hd), Option.some_inj]

theorem card_docsIn (g : Grouping) (x : Nat) : (g.docsIn x).card = g.toList.count x := by
  have hlist : (List.range g.len).map g.get? = g.toList.map some := by
    refine mapM_eq_some_iff.mp (Meaning.mapM_eq_toList List.length_range fun d a ha => ?_)
    obtain ⟨hd, rfl⟩ := List.getElem?_eq_some_iff.mp ha
    rw [List.getElem_range]
  have hcount : g.toList.count x = (List.range g.len).countP (g.get? · = some x) := by
    rw [← List.count_map_of_injective g.toList some (Option.some_injective _), ← hlist,
      List.count_eq_countP, List.countP_map]
    exact List.countP_congr fun d _ => by simp
  rw [hcount, List.countP_eq_length_filter]
  rfl

/-! ### Counting one group -/

theorem foldl_count (x : Nat) (xs : List Nat) (n : Nat) :
    xs.foldl (fun n y => if y = x then n + 1 else n) n = n + xs.count x := by
  induction xs generalizing n with
  | nil => rfl
  | cons y xs ih =>
    rw [List.foldl_cons, ih]
    by_cases hy : y = x
    · rw [if_pos hy, hy, List.count_cons_self]
      omega
    · rw [if_neg hy, List.count_cons_of_ne hy]

theorem countGroup_eq (g : Grouping) (x : Nat) : g.countGroup x = (g.docsIn x).card := by
  rw [card_docsIn]
  cases g with
  | constant y n => simp only [countGroup, toList, List.count_replicate, beq_iff_eq]
  | stored s =>
    simp only [countGroup, toList]
    rw [← Array.foldl_toList, foldl_count, Nat.zero_add]

/-! ### Counting all groups -/

theorem size_foldl_modify (xs : List Nat) (counts : Array Nat) :
    (xs.foldl (fun counts y => counts.modify y (· + 1)) counts).size = counts.size := by
  induction xs generalizing counts with
  | nil => rfl
  | cons y xs ih => exact (ih _).trans Array.size_modify

theorem getElem?_foldl_modify (xs : List Nat) (counts : Array Nat) (x : Nat) :
    (xs.foldl (fun counts y => counts.modify y (· + 1)) counts)[x]? =
      counts[x]?.map (· + xs.count x) := by
  induction xs generalizing counts with
  | nil => simp
  | cons y xs ih =>
    rw [List.foldl_cons, ih, Array.getElem?_modify]
    by_cases hy : y = x
    · rw [if_pos hy, hy, List.count_cons_self, Option.map_map]
      congr 1
      funext n
      show n + 1 + _ = n + (_ + 1)
      omega
    · rw [if_neg hy, List.count_cons_of_ne hy]

theorem length_groupDocCounts (g : Grouping) : g.groupDocCounts.length = g.numGroups := by
  cases g with
  | constant y n => simp [groupDocCounts, numGroups]
  | stored s =>
    simp only [groupDocCounts, numGroups]
    rw [Array.length_toList, ← Array.foldl_toList, size_foldl_modify, Array.size_replicate]

/-- Every count is that of its group. -/
theorem getElem?_groupDocCounts {x : Nat} (hx : x < g.numGroups) :
    g.groupDocCounts[x]? = some (g.docsIn x).card := by
  rw [card_docsIn]
  cases g with
  | constant y n =>
    simp only [numGroups] at hx
    simp only [groupDocCounts, toList, List.count_replicate, beq_iff_eq]
    by_cases hxy : y = x
    · rw [if_pos hxy, ← hxy, List.getElem?_append_right (by simp)]
      simp
    · have hlt : x < (List.replicate y 0).length := by
        rw [List.length_replicate]
        omega
      rw [if_neg hxy, List.getElem?_append_left hlt, List.getElem?_eq_getElem hlt,
        List.getElem_replicate]
  | stored s =>
    simp only [numGroups] at hx
    simp only [groupDocCounts, toList]
    rw [Array.getElem?_toList, ← Array.foldl_toList, getElem?_foldl_modify,
      Array.getElem?_replicate, if_pos hx, Option.map_some, Nat.zero_add]

/-- No document is left out. -/
theorem sum_groupDocCounts (hg : g.WellFormed numDocs) : g.groupDocCounts.sum = numDocs := by
  have hcounts : g.groupDocCounts = (List.range g.numGroups).map fun x => (g.docsIn x).card := by
    refine List.ext_getElem? fun x => ?_
    by_cases hx : x < g.numGroups
    · rw [getElem?_groupDocCounts hx, List.getElem?_map, List.getElem?_range hx]
      rfl
    · have hx := Nat.le_of_not_lt hx
      rw [List.getElem?_eq_none (by rwa [length_groupDocCounts]),
        List.getElem?_eq_none (by simpa using hx)]
  have hgroup : ∀ d ∈ Finset.range g.len, g.groupOf d ∈ Finset.range g.numGroups := by
    intro d hd
    have hget := get?_eq_groupOf (Finset.mem_range.mp hd)
    exact Finset.mem_range.mpr (hg.lt_numGroups d _ hget)
  calc g.groupDocCounts.sum
      = ∑ x ∈ Finset.range g.numGroups, (g.docsIn x).card := by rw [hcounts]; rfl
    _ = (Finset.range g.len).card := by
      simp only [docsIn_eq]
      exact (Finset.card_eq_sum_card_fiberwise hgroup).symm
    _ = numDocs := by rw [Finset.card_range, hg.len_eq]

end Cohort.Grouping
