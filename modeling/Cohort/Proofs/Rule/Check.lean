import Mathlib.Data.List.Nodup
import Mathlib.Data.List.Perm.Subperm
import Mathlib.Tactic.SplitIfs
import Cohort.Proofs.Meaning
import Cohort.Proofs.Outcome
import Cohort.Regroup.MultiRules

/-!
# Checked rule lists — what the checks promise the passes

`Checked` rule lists have a positive group for every condition and at most one rule for a group,
never for group 0. A checked list that is recognised as the identity keeps every document in its
group.
-/

namespace Cohort.MultiRule

/-! ### Counts of conditions -/

theorem conditionCountOf_le (rules : List MultiRule) :
    conditionCountOf rules ≤ numConditions rules := by
  induction rules with
  | nil => exact Nat.le_refl 0
  | cons r rules ih => exact Nat.add_le_add (Nat.mod_le _ _) ih

/-- Conditions whose numbers are ids are counted right. -/
theorem conditionCountOf_eq {rules : List MultiRule} (h : numConditions rules ≤ maxId) :
    conditionCountOf rules = numConditions rules := by
  induction rules with
  | nil => rfl
  | cons r rules ih =>
    have hsum : r.conditions.length + numConditions rules ≤ maxId := h
    show r.conditions.length % halfWordBound + conditionCountOf rules =
      r.conditions.length + numConditions rules
    rw [ih (by omega), mod_halfWordBound (by omega)]

/-! ### Checked lists -/

/-- What `checkTargets` accepts. -/
structure Checked (rules : List MultiRule) : Prop where
  length_eq : ∀ r ∈ rules, r.conditions.length = r.positives.length
  target_ne_zero : ∀ r ∈ rules, r.target ≠ 0
  nodup : (rules.map (·.target)).Nodup

theorem checkTargetsFrom_ok {rules : List MultiRule} {i : Nat} {seen : List Nat}
    (h : checkTargetsFrom i seen rules = .ok ()) :
    Checked rules ∧ ∀ r ∈ rules, r.target ∉ seen := by
  induction rules generalizing i seen with
  | nil => exact ⟨⟨by simp, by simp, List.nodup_nil⟩, by simp⟩
  | cons r rules ih =>
    rw [checkTargetsFrom] at h
    obtain ⟨hlen, h⟩ := require_bind_ok h
    obtain ⟨hzero, h⟩ := require_bind_ok h
    obtain ⟨hseen, h⟩ := require_bind_ok h
    obtain ⟨hrest, hnew⟩ := ih h
    simp only [decide_eq_true_eq] at hlen hzero
    have hseen' : r.target ∉ seen := by simpa using hseen
    refine ⟨⟨?_, ?_, ?_⟩, ?_⟩
    · exact List.forall_mem_cons.mpr ⟨hlen, hrest.length_eq⟩
    · exact List.forall_mem_cons.mpr ⟨hzero, hrest.target_ne_zero⟩
    · refine List.nodup_cons.mpr ⟨fun hmem => ?_, hrest.nodup⟩
      obtain ⟨r', hr', heq⟩ := List.mem_map.mp hmem
      exact hnew r' hr' (heq ▸ List.mem_cons_self)
    · refine List.forall_mem_cons.mpr ⟨hseen', fun r' hr' hmem => ?_⟩
      exact hnew r' hr' (List.mem_cons_of_mem _ hmem)

theorem checkTargets_ok {rules : List MultiRule} {highest : Nat}
    (h : checkTargets rules = .ok highest) :
    Checked rules ∧ highest = highestTarget rules := by
  obtain ⟨_, hc, h⟩ := exists_of_bind_ok h
  cases h
  exact ⟨(checkTargetsFrom_ok hc).1, rfl⟩

theorem checked_of_checkMultiRules {rules : List MultiRule} {highest : Nat}
    (h : Regroup.checkMultiRules rules = .ok highest) : Checked rules := by
  obtain ⟨n, hc, -⟩ := exists_of_bind_ok h
  exact (checkTargets_ok hc).1

variable {rules : List MultiRule}

/-- Around the rule for a group there is none for it. -/
theorem Checked.split (hc : Checked rules) {r : MultiRule} (hr : r ∈ rules) :
    ∃ pre post, rules = pre ++ r :: post ∧ (∀ x ∈ pre, x.target ≠ r.target) ∧
      ∀ x ∈ post, x.target ≠ r.target := by
  obtain ⟨pre, post, rfl⟩ := List.append_of_mem hr
  have hnodup := hc.nodup
  rw [List.map_append, List.map_cons, List.nodup_append, List.nodup_cons] at hnodup
  refine ⟨pre, post, rfl, fun x hx heq => ?_, fun x hx heq => ?_⟩
  · exact hnodup.2.2 x.target (List.mem_map_of_mem hx) r.target List.mem_cons_self heq
  · exact hnodup.2.1.1 (heq ▸ List.mem_map_of_mem hx)

/-- An identity rule sends the documents of its group back to it. -/
theorem destination?_of_isIdentity {r : MultiRule} (hlen : r.conditions.length = r.positives.length)
    (hid : r.isIdentity = true) (shard : Shard) (doc : Nat) :
    Meaning.destination? shard doc r = some r.target := by
  simp only [isIdentity, Bool.and_eq_true, beq_iff_eq, List.all_eq_true] at hid
  unfold Meaning.destination?
  cases hi : r.conditions.findIdx? (Meaning.satisfies shard doc) with
  | none => exact congrArg some hid.1
  | some i =>
    have hlt : i < r.positives.length := by
      rw [← hlen]
      exact (List.findIdx?_eq_some_iff_getElem.mp hi).1
    show r.positives[i]? = some r.target
    rw [List.getElem?_eq_getElem hlt, hid.2 _ (List.getElem_mem hlt)]

/-- In an identity list every group but 0 has a rule, and its rule keeps it. -/
theorem Checked.rule_of_isIdentityList (hc : Checked rules) {numGroups : Nat}
    (hid : isIdentityList rules numGroups = true) {x : Nat} (hx0 : x ≠ 0) (hx : x < numGroups) :
    ∃ r ∈ rules, r.target = x ∧ r.isIdentity = true := by
  simp only [isIdentityList, Bool.and_eq_true, List.all_eq_true, beq_iff_eq] at hid
  obtain ⟨hall, hcount⟩ := hid
  -- as many distinct targets as there are groups to target
  have hnodup : ((rules.filter (·.target < numGroups)).map (·.target)).Nodup :=
    hc.nodup.sublist (List.filter_sublist.map _)
  have hsub : (rules.filter (·.target < numGroups)).map (·.target) ⊆
      List.range' 1 (numGroups - 1) := by
    intro y hy
    obtain ⟨r, hr, rfl⟩ := List.mem_map.mp hy
    obtain ⟨hr, hlt⟩ := List.mem_filter.mp hr
    have hne := hc.target_ne_zero r hr
    simp only [decide_eq_true_eq] at hlt
    rw [List.mem_range'_1]
    omega
  have hperm := (List.subperm_of_subset hnodup hsub).perm_of_length_le (by
    rw [List.length_range', List.length_map]
    omega)
  have hmem : x ∈ (rules.filter (·.target < numGroups)).map (·.target) := by
    rw [hperm.mem_iff, List.mem_range'_1]
    omega
  obtain ⟨r, hr, rfl⟩ := List.mem_map.mp hmem
  exact ⟨r, (List.mem_filter.mp hr).1, rfl, hall r hr⟩

/-- The only rule for a group is the one that is found. -/
theorem Checked.find?_eq (hc : Checked rules) {r : MultiRule} (hr : r ∈ rules) :
    rules.find? (·.target == r.target) = some r := by
  obtain ⟨pre, post, rfl, hpre, -⟩ := hc.split hr
  rw [List.find?_eq_some_iff_append]
  refine ⟨by simp, pre, post, rfl, fun x hx => ?_⟩
  simpa using hpre x hx

theorem Checked.find?_zero (hc : Checked rules) : rules.find? (·.target == 0) = none := by
  rw [List.find?_eq_none]
  intro r hr
  simpa using hc.target_ne_zero r hr

/-- In an identity list every document stays where it is: in group 0 for want of a rule, elsewhere
by the rule of its group. -/
theorem Checked.target?_of_isIdentityList (hc : Checked rules) {numGroups : Nat}
    (hid : isIdentityList rules numGroups = true) {group : Nat} (hgroup : group < numGroups)
    (shard : Shard) (doc : Nat) : Meaning.target? shard rules doc group = some group := by
  unfold Meaning.target?
  by_cases h0 : group = 0
  · rw [h0, hc.find?_zero]
  · obtain ⟨r, hr, rfl, hrid⟩ := hc.rule_of_isIdentityList hid h0 hgroup
    rw [hc.find?_eq hr]
    exact destination?_of_isIdentity (hc.length_eq r hr) hrid shard doc

end Cohort.MultiRule
