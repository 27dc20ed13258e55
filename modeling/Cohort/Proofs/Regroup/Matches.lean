import Mathlib
import Cohort.Proofs.Regroup.Numbering

/-!
# Matches — the numbers in the table at every term that is applied

A sweep applies the terms of a field that pass some test, once each and ascending. Whatever the
table held before, at such a term it has for every target the smallest number of a test of that
target that the term passes, and nothing for a target without any.
-/

namespace Cohort.Regroup

variable {τ : Type} [LinearOrder τ] {tests : List (FieldTest τ)} {p : Postings τ}

/-- A value passes an equality if it is the term, and an inequality if it is at most the term. -/
def FieldTest.Admits (x : FieldTest τ) (v : τ) : Prop :=
  if x.inequality then v ≤ x.term else v = x.term

theorem FieldTest.holds_iff {x : FieldTest τ} {v : τ} : x.holds v = true ↔ x.Admits v := by
  unfold FieldTest.holds FieldTest.Admits
  split_ifs with hi
  · simp
  · simp [eq_comm]

/-- The numbers of the tests of `target` that `v` passes. -/
def numbersAt (tests : List (FieldTest τ)) (target : Nat) (v : τ) : Set Nat :=
  {n | ∃ x ∈ tests, x.target = target ∧ x.Admits v ∧ x.number = n}

theorem mem_numbersAt {target n : Nat} {v : τ} :
    n ∈ numbersAt tests target v ↔ n ∈ numbersOf tests target v := by
  unfold numbersAt
  rw [Set.mem_ofPred_eq, mem_numbersOf]
  simp only [FieldTest.holds_iff]

/-- The table of a term gives the smallest of the numbers of a target. -/
theorem lookup_matchNumbers_iff {target n : Nat} {v : τ} :
    (matchNumbers tests v).lookup target = some n ↔ IsLeast (numbersAt tests target v) n := by
  rw [lookup_matchNumbers, List.min?_eq_some_iff]
  constructor
  · rintro ⟨hn, hmin⟩
    exact ⟨mem_numbersAt.mpr hn, fun k hk => hmin k (mem_numbersAt.mp hk)⟩
  · rintro ⟨hn, hmin⟩
    exact ⟨mem_numbersAt.mp hn, fun k hk => hmin (mem_numbersAt.mpr hk)⟩

theorem lookup_matchNumbers_eq_none {target : Nat} {v : τ} :
    (matchNumbers tests v).lookup target = none ↔ numbersAt tests target v = ∅ := by
  rw [lookup_matchNumbers, List.min?_eq_none_iff, List.eq_nil_iff_forall_not_mem,
    Set.eq_empty_iff_forall_notMem]
  simp only [mem_numbersAt]

/-- What a field's sweep applies: the terms that pass some test, with their documents. -/
theorem mem_fieldMatches (hnumbers : tests.Pairwise fun x y => x.number < y.number)
    (hterms : p.entries.Pairwise fun a b => a.1 < b.1) {term : τ} {docs : List Nat}
    {table : List (Nat × Nat)} : (term, docs, table) ∈ fieldMatches tests p ↔
      (term, docs) ∈ p.entries ∧ (∃ x ∈ tests, x.Admits term) ∧
        table = matchNumbers tests term := by
  rw [fieldMatches_eq hnumbers hterms, List.mem_filterMap]
  constructor
  · rintro ⟨e, he, hm⟩
    obtain ⟨⟨x, hx, hv⟩, heq⟩ := matchOf_eq_some.mp hm
    cases heq
    exact ⟨he, ⟨x, hx, FieldTest.holds_iff.mp hv⟩, rfl⟩
  · rintro ⟨he, ⟨x, hx, hv⟩, rfl⟩
    exact ⟨_, he, matchOf_eq_some.mpr ⟨⟨x, hx, FieldTest.holds_iff.mpr hv⟩, rfl⟩⟩

/-- A field's sweep applies exactly the terms that pass some test, each once and in ascending order.
At each of them the table has, for every target, the smallest number of the target's tests that the
term passes, and no number if it passes none of them. -/
theorem fieldMatches_meaning (hnumbers : tests.Pairwise fun x y => x.number < y.number)
    (hterms : p.entries.Pairwise fun a b => a.1 < b.1) :
    (fieldMatches tests p).Pairwise (fun a b => a.1 < b.1) ∧
    (∀ term docs, (∃ table, (term, docs, table) ∈ fieldMatches tests p) ↔
      (term, docs) ∈ p.entries ∧ ∃ x ∈ tests, x.Admits term) ∧
    ∀ term docs table, (term, docs, table) ∈ fieldMatches tests p → ∀ target,
      (∀ n, table.lookup target = some n ↔ IsLeast (numbersAt tests target term) n) ∧
      (table.lookup target = none ↔ numbersAt tests target term = ∅) := by
  refine ⟨?_, fun term docs => ?_, fun term docs table hm target => ?_⟩
  · rw [fieldMatches_eq hnumbers hterms]
    exact pairwise_filterMap_matchOf hterms
  · constructor
    · rintro ⟨table, hm⟩
      obtain ⟨he, hx, -⟩ := (mem_fieldMatches hnumbers hterms).mp hm
      exact ⟨he, hx⟩
    · rintro ⟨he, hx⟩
      exact ⟨_, (mem_fieldMatches hnumbers hterms).mpr ⟨he, hx, rfl⟩⟩
  · obtain ⟨-, -, rfl⟩ := (mem_fieldMatches hnumbers hterms).mp hm
    exact ⟨fun n => lookup_matchNumbers_iff, lookup_matchNumbers_eq_none⟩

/-- Conditions 1 to 4 are those of group 1, which has an equality twice; conditions 5 and 6 are
those of group 2. -/
def ageRules : List MultiRule :=
  [⟨1, 0, [1, 2, 3, 4], [⟨"age", .int 20, true⟩, ⟨"age", .int 30, false⟩, ⟨"age", .int 10, true⟩,
      ⟨"age", .int 30, false⟩]⟩,
    ⟨2, 0, [1, 2], [⟨"age", .int 15, false⟩, ⟨"age", .int 5, true⟩]⟩]

/-- At 12 the number that 5 gave group 2 is gone. At 30, beyond all inequalities, the first of the
two equalities counts. Neither 25 nor 40 is applied. -/
theorem fieldMatches_meaning_ages :
    numbersAt (intFieldTests "age" (numberConditions ageRules)) 2 12 = ∅ ∧
    IsLeast (numbersAt (intFieldTests "age" (numberConditions ageRules)) 1 30) 2 ∧
    ∀ age ∈ [25, 40], ¬ ∃ x ∈ intFieldTests "age" (numberConditions ageRules), x.Admits age := by
  have hnumbers : (intFieldTests "age" (numberConditions ageRules)).Pairwise
      fun x y => x.number < y.number := by
    rw [intFieldTests_eq]
    exact pairwise_testsOf (pairwise_numberConditions ageRules)
  have happlied : fieldMatches (intFieldTests "age" (numberConditions ageRules))
      ⟨[(5, [0]), (12, [1]), (15, [2]), (25, [3]), (30, [4]), (40, [5])]⟩ =
        [(5, [0], [(1, 1), (2, 6)]), (12, [1], [(1, 1)]), (15, [2], [(1, 1), (2, 5)]),
          (30, [4], [(1, 2)])] := by cbv
  obtain ⟨-, happlies, htable⟩ := fieldMatches_meaning hnumbers
    (p := ⟨[(5, [0]), (12, [1]), (15, [2]), (25, [3]), (30, [4]), (40, [5])]⟩) (by decide)
  rw [happlied] at happlies htable
  refine ⟨?_, ?_, fun age hage hx => ?_⟩
  · exact (htable 12 [1] [(1, 1)] (by decide) 2).2.mp rfl
  · exact ((htable 30 [4] [(1, 2)] (by decide) 1).1 2).mp rfl
  · simp only [List.mem_cons, List.not_mem_nil, or_false] at hage
    rcases hage with rfl | rfl
    · obtain ⟨table, hm⟩ := (happlies 25 [3]).mpr ⟨by decide, hx⟩
      simp at hm
    · obtain ⟨table, hm⟩ := (happlies 40 [5]).mpr ⟨by decide, hx⟩
      simp at hm

end Cohort.Regroup
