import Cohort.Proofs.Regroup.Sweep
import Cohort.Proofs.Rule.Check

/-!
# Numbering — from the numbers of conditions to the groups of their rules

The conditions of the rule that `pre` stands before are numbered from `firstNumber pre` on, and the
positive groups of all rules, one after the other, have the same order. `Hit plan doc group k`: the
plan offers the number `k` to a document of `group`; the numbers offered are those of conditions
that the document satisfies, among them the smallest.
-/

namespace Cohort.Regroup

open MultiRule (Checked)

variable {rules pre post : List MultiRule} {r : MultiRule}

/-! ### Positions -/

/-- The number of the first condition after the rules `pre`. -/
def firstNumber (pre : List MultiRule) : Nat := 1 + MultiRule.numConditions pre

/-- The conditions of all rules in order, each with the target of its rule. -/
def targeted (rules : List MultiRule) : List (Nat × Condition) :=
  rules.flatMap fun r => r.conditions.map (r.target, ·)

theorem length_targeted (rules : List MultiRule) :
    (targeted rules).length = MultiRule.numConditions rules := by
  induction rules with
  | nil => rfl
  | cons r rules ih =>
    show (r.conditions.map (r.target, ·) ++ targeted rules).length = _
    rw [List.length_append, List.length_map, ih]
    rfl

theorem targeted_split : targeted (pre ++ r :: post) =
    targeted pre ++ (r.conditions.map (r.target, ·) ++ targeted post) := by
  unfold targeted
  rw [List.flatMap_append, List.flatMap_cons]

theorem mem_numberConditions {c : NumberedCondition} : c ∈ numberConditions rules ↔
    ∃ i, (targeted rules)[i]? = some (c.target, c.condition) ∧ c.number = i + 1 := by
  unfold numberConditions
  rw [List.mem_map]
  constructor
  · rintro ⟨⟨⟨target, condition⟩, number⟩, hmem, rfl⟩
    obtain ⟨hle, hget⟩ := List.mk_mem_zipIdx_iff_le_and_getElem?_sub.mp hmem
    exact ⟨number - 1, hget, by simp only; omega⟩
  · rintro ⟨i, hget, hnumber⟩
    refine ⟨((c.target, c.condition), i + 1), ?_, by rw [← hnumber]⟩
    refine List.mk_mem_zipIdx_iff_le_and_getElem?_sub.mpr ⟨Nat.le_add_left 1 i, ?_⟩
    rw [Nat.add_sub_cancel]
    exact hget

/-- Numbers ascend. -/
theorem pairwise_numberConditions (rules : List MultiRule) :
    (numberConditions rules).Pairwise fun c d => c.number < d.number := by
  have hnumbers : (numberConditions rules).map (·.number) =
      List.range' 1 (targeted rules).length := by
    unfold numberConditions
    rw [List.map_map, ← List.zipIdx_map_snd 1 (targeted rules)]
    rfl
  rw [← List.pairwise_map (f := NumberedCondition.number) (R := (· < ·)), hnumbers]
  exact List.pairwise_lt_range'

theorem number_le {c : NumberedCondition} (hc : c ∈ numberConditions rules) :
    c.number ≤ MultiRule.numConditions rules := by
  obtain ⟨i, hget, hnumber⟩ := mem_numberConditions.mp hc
  obtain ⟨hlt, -⟩ := List.getElem?_eq_some_iff.mp hget
  rw [length_targeted] at hlt
  omega

/-- The numbered conditions of a rule are its conditions, numbered through. -/
theorem mem_numberConditions_of_target (hpre : ∀ x ∈ pre, x.target ≠ r.target)
    (hpost : ∀ x ∈ post, x.target ≠ r.target) {c : NumberedCondition} :
    c ∈ numberConditions (pre ++ r :: post) ∧ c.target = r.target ↔
      ∃ j, r.conditions[j]? = some c.condition ∧ c.target = r.target ∧
        c.number = firstNumber pre + j := by
  have hother : ∀ {rs : List MultiRule}, (∀ x ∈ rs, x.target ≠ r.target) → ∀ {i : Nat} {d},
      (targeted rs)[i]? = some (r.target, d) → False := by
    intro rs hrs i d hget
    obtain ⟨x, hx, hmem⟩ := List.mem_flatMap.mp (List.mem_of_getElem? hget)
    obtain ⟨d', -, heq⟩ := List.mem_map.mp hmem
    exact hrs x hx (Prod.mk.inj heq).1
  rw [mem_numberConditions, targeted_split]
  constructor
  · rintro ⟨⟨i, hget, hnumber⟩, htarget⟩
    rw [htarget] at hget
    -- the position is before, within or after the conditions of the rule
    by_cases h1 : i < (targeted pre).length
    · rw [List.getElem?_append_left h1] at hget
      exact (hother hpre hget).elim
    · rw [List.getElem?_append_right (Nat.le_of_not_lt h1)] at hget
      by_cases h2 : i - (targeted pre).length < (r.conditions.map (r.target, ·)).length
      · rw [List.getElem?_append_left h2, List.getElem?_map] at hget
        obtain ⟨d, hd, heq⟩ := Option.map_eq_some_iff.mp hget
        obtain ⟨-, rfl⟩ := Prod.mk.inj heq
        refine ⟨i - (targeted pre).length, hd, htarget, ?_⟩
        rw [hnumber, firstNumber, ← length_targeted]
        omega
      · rw [List.getElem?_append_right (Nat.le_of_not_lt h2)] at hget
        exact (hother hpost hget).elim
  · rintro ⟨j, hj, htarget, hnumber⟩
    obtain ⟨hlt, -⟩ := List.getElem?_eq_some_iff.mp hj
    refine ⟨⟨(targeted pre).length + j, ?_, ?_⟩, htarget⟩
    · rw [List.getElem?_append_right (Nat.le_add_right _ _), Nat.add_sub_cancel_left,
        List.getElem?_append_left (by rwa [List.length_map]), List.getElem?_map, hj, htarget]
      rfl
    · rw [hnumber, firstNumber, ← length_targeted]
      omega

/-- There are as many positive groups as conditions. -/
theorem length_positives (h : ∀ x ∈ pre, x.conditions.length = x.positives.length) :
    (pre.flatMap (·.positives)).length = MultiRule.numConditions pre := by
  induction pre with
  | nil => rfl
  | cons x pre ih =>
    obtain ⟨hx, hpre⟩ := List.forall_mem_cons.mp h
    rw [List.flatMap_cons, List.length_append, ih hpre, ← hx]
    rfl

/-- The positive group of a condition stands at its number. -/
theorem getElem?_positives (hpre : ∀ x ∈ pre, x.conditions.length = x.positives.length) {j : Nat}
    (hj : j < r.positives.length) :
    (0 :: (pre ++ r :: post).flatMap (·.positives))[firstNumber pre + j]? = r.positives[j]? := by
  have hpos : firstNumber pre + j = (pre.flatMap (·.positives)).length + j + 1 := by
    rw [length_positives hpre, firstNumber]
    omega
  rw [hpos, List.getElem?_cons_succ, List.flatMap_append, List.flatMap_cons,
    List.getElem?_append_right (Nat.le_add_right _ _), Nat.add_sub_cancel_left,
    List.getElem?_append_left hj]

/-! ### Conditions as tests -/

section Fields

variable {τ : Type} {read : Term → Option τ} {field : String}
  {numbered : List NumberedCondition}

/-- The tests of the conditions on a field whose terms can be read. -/
def testsOf (read : Term → Option τ) (field : String) (numbered : List NumberedCondition) :
    List (FieldTest τ) :=
  (numbered.filter (·.condition.field == field)).filterMap fun c =>
    (read c.condition.term).map fun t => ⟨c.target, c.number, t, c.condition.inequality⟩

theorem mem_testsOf {x : FieldTest τ} : x ∈ testsOf read field numbered ↔
    ∃ c ∈ numbered, c.condition.field = field ∧ read c.condition.term = some x.term ∧
      x.target = c.target ∧ x.number = c.number ∧ x.inequality = c.condition.inequality := by
  unfold testsOf
  simp only [List.mem_filterMap, List.mem_filter, beq_iff_eq, Option.map_eq_some_iff]
  constructor
  · rintro ⟨c, ⟨hc, hf⟩, t, ht, rfl⟩
    exact ⟨c, hc, hf, ht, rfl, rfl, rfl⟩
  · rintro ⟨c, hc, hf, ht, h1, h2, h3⟩
    refine ⟨c, ⟨hc, hf⟩, x.term, ht, ?_⟩
    rw [← h1, ← h2, ← h3]

theorem pairwise_testsOf (h : numbered.Pairwise fun c d => c.number < d.number) :
    (testsOf read field numbered).Pairwise fun x y => x.number < y.number := by
  refine (h.filter _).filterMap _ fun c d hcd x hx y hy => ?_
  obtain ⟨t, -, rfl⟩ := Option.map_eq_some_iff.mp hx
  obtain ⟨u, -, rfl⟩ := Option.map_eq_some_iff.mp hy
  exact hcd

variable [LinearOrder τ]

/-- Whether a value passes a condition whose term can be read. -/
def Passes (read : Term → Option τ) (c : Condition) (v : τ) : Prop :=
  ∃ t, read c.term = some t ∧ (FieldTest.mk 0 0 t c.inequality).holds v = true

/-- An offered number is that of a condition that the document satisfies. -/
theorem passes_of_fieldMatches {p : Postings τ} {numDocs doc group k : Nat}
    (hasc : numbered.Pairwise fun c d => c.number < d.number) (hp : p.Ascending numDocs)
    {m : τ × List Nat × List (Nat × Nat)} (hm : m ∈ fieldMatches (testsOf read field numbered) p)
    (hdoc : doc ∈ m.2.1) (hk : m.2.2.lookup group = some k) :
    ∃ c ∈ numbered, c.condition.field = field ∧ c.target = group ∧ c.number = k ∧
      m.1 ∈ p.valuesOf doc ∧ Passes read c.condition m.1 := by
  rw [fieldMatches_eq (pairwise_testsOf hasc) hp.terms] at hm
  obtain ⟨e, he, hm⟩ := List.mem_filterMap.mp hm
  obtain ⟨-, rfl⟩ := matchOf_eq_some.mp hm
  rw [lookup_matchNumbers] at hk
  obtain ⟨x, hx, htarget, hholds, hnumber⟩ := mem_numbersOf.mp (List.min?_mem hk)
  obtain ⟨c, hc, hf, hread, h1, h2, h3⟩ := mem_testsOf.mp hx
  refine ⟨c, hc, hf, h1 ▸ htarget, h2 ▸ hnumber, Postings.mem_valuesOf.mpr ⟨e.2, he, hdoc⟩,
    x.term, hread, ?_⟩
  rw [← h3]
  exact hholds

theorem lt_of_mem_fieldMatches {p : Postings τ} {numDocs doc : Nat}
    (hasc : numbered.Pairwise fun c d => c.number < d.number) (hp : p.Ascending numDocs)
    {m : τ × List Nat × List (Nat × Nat)} (hm : m ∈ fieldMatches (testsOf read field numbered) p)
    (hdoc : doc ∈ m.2.1) : doc < numDocs := by
  rw [fieldMatches_eq (pairwise_testsOf hasc) hp.terms] at hm
  obtain ⟨e, he, hm⟩ := List.mem_filterMap.mp hm
  obtain ⟨-, rfl⟩ := matchOf_eq_some.mp hm
  exact hp.docs_lt e he doc hdoc

/-- For every condition that a document satisfies it is offered a number at most as large. -/
theorem fieldMatches_of_passes {p : Postings τ} {numDocs doc : Nat}
    (hasc : numbered.Pairwise fun c d => c.number < d.number) (hp : p.Ascending numDocs)
    {c : NumberedCondition} (hc : c ∈ numbered) (hf : c.condition.field = field) {v : τ}
    (hv : v ∈ p.valuesOf doc) (hpass : Passes read c.condition v) :
    ∃ m ∈ fieldMatches (testsOf read field numbered) p, m.1 = v ∧ doc ∈ m.2.1 ∧
      ∃ k ≤ c.number, m.2.2.lookup c.target = some k := by
  obtain ⟨docs, he, hdoc⟩ := Postings.mem_valuesOf.mp hv
  obtain ⟨t, hread, hholds⟩ := hpass
  have hx : ⟨c.target, c.number, t, c.condition.inequality⟩ ∈ testsOf read field numbered :=
    mem_testsOf.mpr ⟨c, hc, hf, hread, rfl, rfl, rfl⟩
  have hmem : c.number ∈ numbersOf (testsOf read field numbered) c.target v :=
    mem_numbersOf.mpr ⟨_, hx, rfl, hholds, rfl⟩
  refine ⟨(v, docs, matchNumbers (testsOf read field numbered) v), ?_, rfl, hdoc, ?_⟩
  · rw [fieldMatches_eq (pairwise_testsOf hasc) hp.terms]
    exact List.mem_filterMap.mpr ⟨(v, docs), he, matchOf_eq_some.mpr ⟨⟨_, hx, hholds⟩, rfl⟩⟩
  · obtain ⟨k, hk⟩ := Option.isSome_iff_exists.mp (List.isSome_min?_of_mem hmem)
    exact ⟨k, (List.min?_eq_some_iff.mp hk).2 _ hmem, by rw [lookup_matchNumbers, hk]⟩

end Fields

/-! ### Plans -/

/-- The plan offers the number `k` to document `doc` of `group`. -/
def Hit (plan : List (List Nat × List (Nat × Nat))) (doc group k : Nat) : Prop :=
  ∃ e ∈ plan, doc ∈ e.1 ∧ e.2.lookup group = some k

def intOf? : Term → Option Int
  | .int v => some v
  | .str _ => none

def stringOf? : Term → Option String
  | .str s => some s
  | .int _ => none

theorem intFieldTests_eq (field : String) (numbered : List NumberedCondition) :
    intFieldTests field numbered = testsOf intOf? field numbered := by
  unfold intFieldTests testsOf
  refine List.filterMap_congr fun c _ => ?_
  cases c.condition.term <;> rfl

theorem stringFieldTests_eq (field : String) (numbered : List NumberedCondition) :
    stringFieldTests field numbered = testsOf stringOf? field numbered := by
  unfold stringFieldTests testsOf
  refine List.filterMap_congr fun c _ => ?_
  cases c.condition.term <;> rfl

variable {shard : Shard} {doc group k : Nat}

theorem matchesInt_eq (field : String) (t : Int) (inequality : Bool) (v : Int) :
    (Condition.mk field (.int t) inequality).matchesInt v =
      (FieldTest.mk 0 0 t inequality).holds v := by
  cases inequality with
  | true =>
    show decide (v ≤ t) = !decide (t < v)
    by_cases h : v ≤ t
    · simp [h]
    · simp [h, not_le.mp h]
  | false =>
    show (v == t) = decide (t = v)
    by_cases h : t = v
    · simp [h]
    · simp [h, Ne.symm h]

theorem matchesString_eq (field : String) (t : String) (inequality : Bool) (v : String) :
    (Condition.mk field (.str t) inequality).matchesString v =
      (FieldTest.mk 0 0 t inequality).holds v := by
  cases inequality with
  | true => rfl
  | false =>
    show (v == t) = decide (t = v)
    by_cases h : t = v
    · simp [h]
    · simp [h, Ne.symm h]

/-- A document satisfies a condition if a value of its term's type passes. -/
theorem satisfies_iff (c : Condition) : Meaning.satisfies shard doc c = true ↔
    (∃ v ∈ (shard.intPostings c.field).valuesOf doc, Passes intOf? c v) ∨
      ∃ v ∈ (shard.stringPostings c.field).valuesOf doc, Passes stringOf? c v := by
  obtain ⟨field, term, inequality⟩ := c
  cases term with
  | int t =>
    show ((shard.intValues field doc).any _) = true ↔ _
    rw [List.any_eq_true]
    constructor
    · rintro ⟨v, hv, hm⟩
      exact .inl ⟨v, hv, t, rfl, matchesInt_eq field t inequality v ▸ hm⟩
    · rintro (⟨v, hv, u, hu, hm⟩ | ⟨v, hv, u, hu, hm⟩)
      · cases hu
        exact ⟨v, hv, (matchesInt_eq field t inequality v).trans hm⟩
      · cases hu
  | str t =>
    show ((shard.stringValues field doc).any _) = true ↔ _
    rw [List.any_eq_true]
    constructor
    · rintro ⟨v, hv, hm⟩
      exact .inr ⟨v, hv, t, rfl, matchesString_eq field t inequality v ▸ hm⟩
    · rintro (⟨v, hv, u, hu, hm⟩ | ⟨v, hv, u, hu, hm⟩)
      · cases hu
      · cases hu
        exact ⟨v, hv, (matchesString_eq field t inequality v).trans hm⟩

theorem mem_fieldNames {isInt : Bool} {c : Condition} {conditions : List Condition}
    (hc : c ∈ conditions) (hi : c.isInt = isInt) : c.field ∈ fieldNames isInt conditions :=
  mem_distinctSorted.mpr (List.mem_map_of_mem (List.mem_filter.mpr ⟨hc, by simpa using hi⟩))

theorem isInt_of_passes {c : Condition} {v : Int} (h : Passes intOf? c v) : c.isInt = true := by
  obtain ⟨t, ht, -⟩ := h
  unfold Condition.isInt
  cases hterm : c.term with
  | int => rfl
  | str =>
    rw [hterm] at ht
    cases ht

theorem not_isInt_of_passes {c : Condition} {v : String} (h : Passes stringOf? c v) :
    c.isInt = false := by
  obtain ⟨t, ht, -⟩ := h
  unfold Condition.isInt
  cases hterm : c.term with
  | str => rfl
  | int =>
    rw [hterm] at ht
    cases ht

/-- A plan consists of the matches of the integer fields and those of the string fields. -/
theorem mem_matchPlan {e : List Nat × List (Nat × Nat)} : e ∈ matchPlan shard rules ↔
    (∃ field ∈ fieldNames true ((numberConditions rules).map (·.condition)),
      ∃ m ∈ fieldMatches (testsOf intOf? field (numberConditions rules)) (shard.intPostings field),
        m.2 = e) ∨
    ∃ field ∈ fieldNames false ((numberConditions rules).map (·.condition)),
      ∃ m ∈ fieldMatches (testsOf stringOf? field (numberConditions rules))
        (shard.stringPostings field), m.2 = e := by
  unfold matchPlan
  simp only [List.mem_append, List.mem_flatMap, List.mem_map, intFieldTests_eq,
    stringFieldTests_eq]

/-- A plan only names documents that exist. -/
theorem lt_numDocs_of_mem_matchPlan (hs : shard.Ascending) {e : List Nat × List (Nat × Nat)}
    (he : e ∈ matchPlan shard rules) (hd : doc ∈ e.1) : doc < shard.numDocs := by
  have hasc := pairwise_numberConditions rules
  rcases mem_matchPlan.mp he with ⟨field, -, m, hm, rfl⟩ | ⟨field, -, m, hm, rfl⟩
  · exact lt_of_mem_fieldMatches hasc (hs.intPostings field) hm hd
  · exact lt_of_mem_fieldMatches hasc (hs.stringPostings field) hm hd

/-- An offered number is that of a condition of the group's rule that the document satisfies. -/
theorem satisfies_of_hit (hs : shard.Ascending) (h : Hit (matchPlan shard rules) doc group k) :
    ∃ c ∈ numberConditions rules, c.target = group ∧ c.number = k ∧
      Meaning.satisfies shard doc c.condition = true := by
  have hasc := pairwise_numberConditions rules
  obtain ⟨e, he, hdoc, hk⟩ := h
  rcases mem_matchPlan.mp he with ⟨field, -, m, hm, rfl⟩ | ⟨field, -, m, hm, rfl⟩
  · obtain ⟨c, hc, rfl, htarget, hnumber, hv⟩ :=
      passes_of_fieldMatches hasc (hs.intPostings field) hm hdoc hk
    exact ⟨c, hc, htarget, hnumber, (satisfies_iff c.condition).mpr (.inl ⟨_, hv⟩)⟩
  · obtain ⟨c, hc, rfl, htarget, hnumber, hv⟩ :=
      passes_of_fieldMatches hasc (hs.stringPostings field) hm hdoc hk
    exact ⟨c, hc, htarget, hnumber, (satisfies_iff c.condition).mpr (.inr ⟨_, hv⟩)⟩

/-- Every condition that a document satisfies is met by an offer at least as good. -/
theorem hit_of_satisfies (hs : shard.Ascending) {c : NumberedCondition}
    (hc : c ∈ numberConditions rules) (hsat : Meaning.satisfies shard doc c.condition = true) :
    ∃ k ≤ c.number, Hit (matchPlan shard rules) doc c.target k := by
  have hasc := pairwise_numberConditions rules
  have hmem : c.condition ∈ (numberConditions rules).map (·.condition) := List.mem_map_of_mem hc
  rcases (satisfies_iff c.condition).mp hsat with ⟨v, hv, hpass⟩ | ⟨v, hv, hpass⟩
  · obtain ⟨m, hm, -, hdoc, k, hle, hk⟩ :=
      fieldMatches_of_passes hasc (hs.intPostings c.condition.field) hc rfl hv hpass
    have hfield := mem_fieldNames hmem (isInt_of_passes hpass)
    exact ⟨k, hle, m.2, mem_matchPlan.mpr (.inl ⟨_, hfield, m, hm, rfl⟩), hdoc, hk⟩
  · obtain ⟨m, hm, -, hdoc, k, hle, hk⟩ :=
      fieldMatches_of_passes hasc (hs.stringPostings c.condition.field) hc rfl hv hpass
    have hfield := mem_fieldNames hmem (not_isInt_of_passes hpass)
    exact ⟨k, hle, m.2, mem_matchPlan.mpr (.inr ⟨_, hfield, m, hm, rfl⟩), hdoc, hk⟩

/-! ### The numbers of one rule -/

/-- The conditions of a rule are numbered from `first` on, and so are its positive groups. -/
structure Numbered (rules : List MultiRule) (r : MultiRule) (first : Nat) : Prop where
  mem_iff : ∀ c : NumberedCondition, c ∈ numberConditions rules ∧ c.target = r.target ↔
    ∃ j, r.conditions[j]? = some c.condition ∧ c.target = r.target ∧ c.number = first + j
  positive_eq : ∀ j < r.positives.length,
    (0 :: rules.flatMap (·.positives))[first + j]? = r.positives[j]?

theorem numbered_of_checked (hc : Checked rules) (hr : r ∈ rules) :
    ∃ first, Numbered rules r first := by
  obtain ⟨pre, post, rfl, hpre, hpost⟩ := hc.split hr
  refine ⟨firstNumber pre, fun c => mem_numberConditions_of_target hpre hpost, fun j hj => ?_⟩
  exact getElem?_positives (fun x hx => hc.length_eq x (List.mem_append_left _ hx)) hj

variable {first : Nat}

/-- The numbered conditions of the rule's group are those of the rule. -/
theorem Numbered.condition_mem (hn : Numbered rules r first) {c : NumberedCondition}
    (hc : c ∈ numberConditions rules) (htarget : c.target = r.target) :
    c.condition ∈ r.conditions := by
  obtain ⟨j, hj, -⟩ := (hn.mem_iff c).mp ⟨hc, htarget⟩
  exact List.mem_of_getElem? hj

theorem Numbered.exists_numbered (hn : Numbered rules r first) {c : Condition}
    (hc : c ∈ r.conditions) :
    ∃ d ∈ numberConditions rules, d.target = r.target ∧ d.condition = c := by
  obtain ⟨j, hj⟩ := List.mem_iff_getElem?.mp hc
  obtain ⟨hd, htarget⟩ := (hn.mem_iff ⟨r.target, first + j, c⟩).mpr ⟨j, hj, rfl, rfl⟩
  exact ⟨_, hd, htarget, rfl⟩

/-- What is offered to a document of the rule's group is the number of one of its conditions. -/
theorem Numbered.satisfies_of_hit (hn : Numbered rules r first) (hs : shard.Ascending)
    (h : Hit (matchPlan shard rules) doc r.target k) :
    ∃ j c, r.conditions[j]? = some c ∧ k = first + j ∧ Meaning.satisfies shard doc c = true := by
  obtain ⟨c, hc, htarget, rfl, hsat⟩ := Regroup.satisfies_of_hit hs h
  obtain ⟨j, hj, -, hnumber⟩ := (hn.mem_iff c).mp ⟨hc, htarget⟩
  exact ⟨j, c.condition, hj, hnumber, hsat⟩

theorem Numbered.hit_of_satisfies (hn : Numbered rules r first) (hs : shard.Ascending) {j : Nat}
    {c : Condition} (hj : r.conditions[j]? = some c)
    (hsat : Meaning.satisfies shard doc c = true) :
    ∃ k ≤ first + j, Hit (matchPlan shard rules) doc r.target k := by
  obtain ⟨hc, -⟩ := (hn.mem_iff ⟨r.target, first + j, c⟩).mpr ⟨j, hj, rfl, rfl⟩
  exact Regroup.hit_of_satisfies hs hc hsat

/-- Where nothing is offered, no condition is satisfied. -/
theorem Numbered.findIdx?_of_no_hit (hn : Numbered rules r first) (hs : shard.Ascending)
    (h : ∀ k, ¬ Hit (matchPlan shard rules) doc r.target k) :
    r.conditions.findIdx? (Meaning.satisfies shard doc) = none := by
  refine List.findIdx?_eq_none_iff.mpr fun c hc => ?_
  by_contra hsat
  rw [Bool.not_eq_false] at hsat
  obtain ⟨j, hj⟩ := List.mem_iff_getElem?.mp hc
  obtain ⟨k, -, hk⟩ := hn.hit_of_satisfies hs hj hsat
  exact h k hk

/-- The smallest number that is offered is that of the first satisfied condition. -/
theorem Numbered.findIdx?_of_least_hit (hn : Numbered rules r first) (hs : shard.Ascending)
    (hk : Hit (matchPlan shard rules) doc r.target k)
    (hleast : ∀ i, Hit (matchPlan shard rules) doc r.target i → k ≤ i) :
    ∃ j, j < r.conditions.length ∧ k = first + j ∧
      r.conditions.findIdx? (Meaning.satisfies shard doc) = some j := by
  obtain ⟨j, c, hj, rfl, hsat⟩ := hn.satisfies_of_hit hs hk
  obtain ⟨hlt, rfl⟩ := List.getElem?_eq_some_iff.mp hj
  refine ⟨j, hlt, rfl, List.findIdx?_eq_some_iff_getElem.mpr ⟨hlt, hsat, fun i hi => ?_⟩⟩
  rw [Bool.not_eq_true]
  -- an earlier one would have offered a smaller number
  by_contra hsat'
  rw [Bool.not_eq_false] at hsat'
  obtain ⟨m, hm, hhit⟩ := hn.hit_of_satisfies hs (List.getElem?_eq_getElem _) hsat'
  have hle := hleast m hhit
  omega

end Cohort.Regroup
