import Cohort.Meaning
import Cohort.Proofs.Grouping.WellFormed

/-!
# Meaning — groupings and the lists of groups that they stand for
-/

namespace Cohort.Meaning

variable {g g' : Grouping} {numDocs : Nat}

theorem numGroups_le_one_of_empty (hlen : g.len = 0) : numGroups g.toList ≤ 1 := by
  have hnil : g.toList = [] := List.eq_nil_of_length_eq_zero (by rw [Grouping.length_toList, hlen])
  rw [hnil]
  exact Nat.le_refl 1

/-- Where there are documents, the number of groups is one more than the largest group. -/
theorem numGroups_toList (hg : g.WellFormed numDocs) (hn : 0 < numDocs) :
    numGroups g.toList = g.numGroups := by
  obtain ⟨d, hd⟩ := hg.top_attained hn
  have hmem : g.numGroups - 1 ∈ g.toList := Grouping.mem_toList.mpr ⟨d, hd⟩
  have hpos := hg.lt_numGroups d _ hd
  have hle : g.toList.foldl max 0 ≤ g.numGroups - 1 := by
    refine foldl_max_le_iff.mpr ⟨Nat.zero_le _, fun x hx => ?_⟩
    obtain ⟨e, he⟩ := Grouping.mem_toList.mp hx
    exact hg.le_top he
  have hge := le_foldl_max 0 hmem
  unfold numGroups
  omega

/-- What a recount of stored groups reports, also where there are no documents. -/
theorem numGroups_recount? (hstored : g.isConstant = false) (h : g.recount? = some g') :
    g'.numGroups = numGroups g'.toList := by
  cases g with
  | constant => cases hstored
  | stored s =>
    simp only [Grouping.recount?] at h
    split_ifs at h
    cases h
    show s.groups.foldl max 0 + 1 = s.groups.toList.foldl max 0 + 1
    rw [Array.foldl_toList]

/-- The new group of a document of `group`. -/
def target? (shard : Shard) (rules : List MultiRule) (doc group : Nat) : Option Nat :=
  match rules.find? (·.target == group) with
  | none => some 0
  | some r => destination? shard doc r

/-- Judging every document on its own gives the groups that it ends up in. -/
theorem mapM_eq_toList {α : Type} {f : α → Option Nat} {xs : List α} (hlen : xs.length = g.len)
    (h : ∀ d a, xs[d]? = some a → g.get? d = f a) : xs.mapM f = some g.toList := by
  rw [mapM_eq_some_iff]
  refine List.ext_getElem? fun d => ?_
  rw [List.getElem?_map, List.getElem?_map, Grouping.getElem?_toList]
  cases ha : xs[d]? with
  | none =>
    rw [List.getElem?_eq_none_iff, hlen] at ha
    rw [Grouping.get?_eq_none ha]
    rfl
  | some a =>
    have hd : d < g.len := hlen ▸ (List.getElem?_eq_some_iff.mp ha).1
    obtain ⟨x, hx⟩ := Grouping.get?_of_lt_len hd
    rw [hx, Option.map_some, Option.map_some, ← h d a ha, hx]

/-- Groups whose documents all stay are what the rules make of themselves. -/
theorem multiRules?_eq_self {shard : Shard} {rules : List MultiRule} {groups : List Nat}
    (h : ∀ group ∈ groups, ∀ doc, target? shard rules doc group = some group) :
    multiRules? shard groups rules = some groups := by
  unfold multiRules?
  split_ifs with hn
  · rfl
  · have hmap : groups.zipIdx.mapM (fun e => target? shard rules e.2 e.1) = some groups := by
      rw [mapM_eq_some_iff]
      calc groups.zipIdx.map (fun e => target? shard rules e.2 e.1)
          = groups.zipIdx.map (fun e => some e.1) := List.map_congr_left fun e he =>
            h e.1 (List.fst_mem_of_mem_zipIdx he) e.2
        _ = (groups.zipIdx.map Prod.fst).map some := List.map_map.symm
        _ = groups.map some := by rw [List.zipIdx_map_fst]
    exact hmap

/-- With all documents in group 0, there is at most one group. -/
theorem numGroups_le_one (hg : g.WellFormed numDocs) (hn : g.numGroups ≤ 1) :
    numGroups g.toList ≤ 1 := by
  rcases Nat.eq_zero_or_pos numDocs with h0 | hpos
  · exact numGroups_le_one_of_empty (hg.len_eq.trans h0)
  · rwa [numGroups_toList hg hpos]

/-- All documents are in group 0 and stay there. -/
theorem toList_eq_of_spares (hg : g.WellFormed numDocs) (hn : g.numGroups ≤ 1)
    (hlen : g'.len = g.len) (hs : g.Spares g') : g.toList = g'.toList := by
  refine (Grouping.toList_ext hlen fun d hd => ?_).symm
  obtain ⟨x, hx⟩ := Grouping.get?_of_lt_len hd
  have hlt := hg.lt_numGroups d x hx
  obtain rfl : x = 0 := by omega
  rw [hx, hs d hx]

/-- Without documents there is only one list of groups. -/
theorem toList_eq_of_empty (hlen : g'.len = g.len) (h0 : g.len = 0) : g.toList = g'.toList := by
  have hnil : ∀ t : Grouping, t.len = 0 → t.toList = [] := fun t ht =>
    List.eq_nil_of_length_eq_zero (by rw [Grouping.length_toList, ht])
  rw [hnil g h0, hnil g' (hlen.trans h0)]

/-- A session that is filtered out stays as it is. -/
theorem multiRules?_filteredOut (hg : g.WellFormed numDocs) (hn : g.numGroups ≤ 1)
    (shard : Shard) (rules : List MultiRule) :
    multiRules? shard g.toList rules = some g.toList :=
  if_pos (numGroups_le_one hg hn)

/-- Document by document, a grouping follows the rules. -/
theorem multiRules?_eq (hg : g.WellFormed numDocs) (hn : 1 < g.numGroups) {shard : Shard}
    {rules : List MultiRule} (hlen : g'.len = g.len)
    (h : ∀ d x, g.get? d = some x → g'.get? d = target? shard rules d x) :
    multiRules? shard g.toList rules = some g'.toList := by
  unfold multiRules?
  rcases Nat.eq_zero_or_pos numDocs with h0 | hpos
  · have hempty : g.len = 0 := hg.len_eq.trans h0
    rw [if_pos (numGroups_le_one_of_empty hempty), toList_eq_of_empty hlen hempty]
  · rw [if_neg (by rw [numGroups_toList hg hpos]; omega)]
    refine mapM_eq_toList (by rw [List.length_zipIdx, Grouping.length_toList, hlen]) ?_
    rintro d ⟨x, e⟩ ha
    rw [List.getElem?_zipIdx, Grouping.getElem?_toList] at ha
    obtain ⟨y, hy, he⟩ := Option.map_eq_some_iff.mp ha
    cases he
    rw [Nat.zero_add]
    exact h d x hy

end Cohort.Meaning
