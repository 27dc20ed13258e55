import Cohort.Proofs.Rule.Check

/-!
# Fit rule lists — what exactly the checks refuse, and what keeps every group

`Unfit` lists the ways in which rules are refused before any document is looked at; there are no
others. Of multi-condition rules that are not refused, the test for identity says whether every
group that there is `Keeps` its documents. Single-condition rules are refused just when the same
rules with lists of one condition are.
-/

namespace Cohort.MultiRule

/-! ### Equality splits -/

/-- All conditions, of which there are some, are equality tests on one field of one type. -/
structure IsSplit (r : MultiRule) : Prop where
  nonempty : r.conditions ≠ []
  equality : ∀ c ∈ r.conditions, c.inequality = false
  same : ∀ c ∈ r.conditions, ∀ d ∈ r.conditions, c.field = d.field ∧ c.isInt = d.isInt

/-- Two conditions with the same term have different positive groups. -/
def Ambiguous (r : MultiRule) : Prop :=
  ∃ (i j : Nat) (c d : Condition), r.conditions[i]? = some c ∧ r.conditions[j]? = some d ∧
    c.term = d.term ∧ r.positives[i]? ≠ r.positives[j]?

theorem isSome_splitField? {r : MultiRule} : r.splitField?.isSome = true ↔ r.IsSplit := by
  unfold splitField?
  cases hcs : r.conditions with
  | nil => exact ⟨nofun, fun h => absurd hcs h.nonempty⟩
  | cons first rest =>
    have hall : ((first :: rest).all fun c =>
        !c.inequality && c.field == first.field && c.isInt == first.isInt) = true ↔ r.IsSplit := by
      simp only [List.all_eq_true, Bool.and_eq_true, Bool.not_eq_true', beq_iff_eq]
      rw [← hcs]
      constructor
      · intro h
        refine ⟨by simp [hcs], fun c hc => (h c hc).1.1, fun c hc d hd => ?_⟩
        exact ⟨(h c hc).1.2.trans (h d hd).1.2.symm, (h c hc).2.trans (h d hd).2.symm⟩
      · intro h c hc
        have hfirst : first ∈ r.conditions := by simp [hcs]
        exact ⟨⟨h.equality c hc, (h.same c hc first hfirst).1⟩, (h.same c hc first hfirst).2⟩
    rw [← hall]
    simp only
    split_ifs with h
    · exact ⟨fun _ => h, fun _ => rfl⟩
    · exact ⟨nofun, fun h' => absurd h' h⟩

/-! ### Refused lists -/

/-- The ways in which a list of rules is refused. -/
inductive Unfit (rules : List MultiRule) : Prop
  | counts {r : MultiRule} (hr : r ∈ rules) (h : r.conditions.length ≠ r.positives.length)
  | zero {r : MultiRule} (hr : r ∈ rules) (h : r.target = 0)
  | shared (h : ¬ (rules.map (·.target)).Nodup)
  | ambiguous {r : MultiRule} (hr : r ∈ rules) (hs : r.IsSplit) (h : r.Ambiguous)

variable {rules : List MultiRule} {r : MultiRule}

theorem unfit_of_not_checked (h : ¬ Checked rules) : Unfit rules := by
  by_contra hfit
  refine h ⟨fun r hr => ?_, fun r hr h0 => hfit (.zero hr h0), ?_⟩
  · by_contra hne
    exact hfit (.counts hr hne)
  · by_contra hshared
    exact hfit (.shared hshared)

/-- Where the targets are refused, it is for a bad argument, and one of the checks does fail. -/
theorem checkTargetsFrom_error {i : Nat} {seen : List Nat} {e : Error}
    (h : checkTargetsFrom i seen rules = .error e) :
    (∃ cause, e = .invalidArgument cause) ∧
      ¬ (Checked rules ∧ ∀ r ∈ rules, r.target ∉ seen) := by
  induction rules generalizing i seen with
  | nil => cases h
  | cons r rules ih =>
    rw [checkTargetsFrom] at h
    rcases require_bind_error h with ⟨hlen, rfl⟩ | ⟨-, h⟩
    · exact ⟨⟨_, rfl⟩, fun hc => of_decide_eq_false hlen (hc.1.length_eq r List.mem_cons_self)⟩
    rcases require_bind_error h with ⟨hzero, rfl⟩ | ⟨-, h⟩
    · exact ⟨⟨_, rfl⟩, fun hc => of_decide_eq_false hzero
        (hc.1.target_ne_zero r List.mem_cons_self)⟩
    rcases require_bind_error h with ⟨hseen, rfl⟩ | ⟨-, h⟩
    · exact ⟨⟨_, rfl⟩, fun hc => hc.2 r List.mem_cons_self (by simpa using hseen)⟩
    · obtain ⟨hcause, hnot⟩ := ih h
      refine ⟨hcause, fun hc => hnot ⟨?_, fun r' hr' hmem => ?_⟩⟩
      · have hnodup := hc.1.nodup
        rw [List.map_cons, List.nodup_cons] at hnodup
        exact ⟨fun r' hr' => hc.1.length_eq r' (List.mem_cons_of_mem _ hr'),
          fun r' hr' => hc.1.target_ne_zero r' (List.mem_cons_of_mem _ hr'), hnodup.2⟩
      · rcases List.mem_cons.mp hmem with heq | hmem
        · have hnodup := hc.1.nodup
          rw [List.map_cons, List.nodup_cons] at hnodup
          exact hnodup.1 (heq ▸ List.mem_map_of_mem hr')
        · exact hc.2 r' (List.mem_cons_of_mem _ hr') hmem

/-- The groups that terms are sent to agree with those seen before and among themselves. -/
def Agreeing (seen : List (Term × Nat)) (pairs : List (Condition × Nat)) : Prop :=
  (∀ e ∈ pairs, ∀ p, seen.lookup e.1.term = some p → p = e.2) ∧
    ∀ e ∈ pairs, ∀ e' ∈ pairs, e.1.term = e'.1.term → e.2 = e'.2

theorem agreeing_cons_of_some {seen : List (Term × Nat)} {c : Condition} {positive previous : Nat}
    {pairs : List (Condition × Nat)} (hl : seen.lookup c.term = some previous) :
    Agreeing seen ((c, positive) :: pairs) ↔ previous = positive ∧ Agreeing seen pairs := by
  unfold Agreeing
  simp only [List.forall_mem_cons]
  constructor
  · rintro ⟨⟨hc, hseen⟩, -, hpairs⟩
    exact ⟨hc previous hl, hseen, fun e he => (hpairs e he).2⟩
  · rintro ⟨rfl, hseen, hpairs⟩
    refine ⟨⟨fun p hp => ?_, hseen⟩, ⟨fun _ => trivial, fun e he hterm => ?_⟩, fun e he => ⟨?_, ?_⟩⟩
    · exact Option.some.inj (hp.symm.trans hl)
    · exact hseen e he previous (hterm ▸ hl)
    · exact fun hterm => (hseen e he previous (hterm ▸ hl)).symm
    · exact hpairs e he

theorem agreeing_cons_of_none {seen : List (Term × Nat)} {c : Condition} {positive : Nat}
    {pairs : List (Condition × Nat)} (hl : seen.lookup c.term = none) :
    Agreeing seen ((c, positive) :: pairs) ↔ Agreeing ((c.term, positive) :: seen) pairs := by
  have hlookup : ∀ t : Term, ((c.term, positive) :: seen).lookup t =
      if t = c.term then some positive else seen.lookup t := by
    intro t
    rw [List.lookup_cons]
    by_cases ht : t = c.term
    · simp [ht]
    · rw [if_neg ht, beq_false_of_ne ht]
  unfold Agreeing
  simp only [List.forall_mem_cons, hlookup]
  constructor
  · rintro ⟨⟨-, hseen⟩, ⟨-, hown⟩, hpairs⟩
    refine ⟨fun e he p hp => ?_, fun e he => (hpairs e he).2⟩
    split_ifs at hp with hterm
    · exact (Option.some.inj hp).symm.trans (hown e he hterm.symm)
    · exact hseen e he p hp
  · rintro ⟨hseen, hpairs⟩
    have hown : ∀ e ∈ pairs, e.1.term = c.term → positive = e.2 := fun e he hterm =>
      hseen e he positive (if_pos hterm)
    refine ⟨⟨fun p hp => ?_, fun e he p hp => ?_⟩, ⟨fun _ => trivial, fun e he hterm => ?_⟩,
      fun e he => ⟨fun hterm => (hown e he hterm).symm, hpairs e he⟩⟩
    · rw [hl] at hp
      cases hp
    · refine hseen e he p ?_
      rw [if_neg, hp]
      intro hterm
      rw [hterm, hl] at hp
      cases hp
    · exact hown e he hterm.symm

/-- The destinations of an equality split are accepted if they agree. -/
theorem checkDestinations_cases (r : MultiRule) (field : String) (seen : List (Term × Nat))
    (pairs : List (Condition × Nat)) :
    (r.checkDestinations field seen pairs = .ok () ∧ Agreeing seen pairs) ∨
      ∃ cause, r.checkDestinations field seen pairs = .error (.invalidArgument cause) ∧
        ¬ Agreeing seen pairs := by
  induction pairs generalizing seen with
  | nil => exact .inl ⟨rfl, by simp [Agreeing]⟩
  | cons e pairs ih =>
    obtain ⟨c, positive⟩ := e
    rw [checkDestinations]
    cases hl : seen.lookup c.term with
    | none =>
      rw [agreeing_cons_of_none hl]
      exact ih _
    | some previous =>
      rw [agreeing_cons_of_some hl]
      by_cases heq : previous = positive
      · simp only [heq, decide_true, true_and]
        exact ih seen
      · refine .inr ⟨.ambiguousSplit r.target field c.term previous positive, ?_, fun h => heq h.1⟩
        simp only [heq, decide_false]
        rfl

theorem agreeing_zip (hlen : r.conditions.length = r.positives.length) :
    Agreeing [] (r.conditions.zip r.positives) ↔ ¬ r.Ambiguous := by
  have hmem : ∀ {c : Condition} {p : Nat}, (c, p) ∈ r.conditions.zip r.positives ↔
      ∃ i : Nat, r.conditions[i]? = some c ∧ r.positives[i]? = some p := by
    intro c p
    rw [List.mem_iff_getElem?]
    simp only [List.getElem?_zip_eq_some]
  constructor
  · rintro ⟨-, hagree⟩ ⟨i, j, c, d, hi, hj, hterm, hne⟩
    have hpositive : ∀ {k : Nat} {c : Condition}, r.conditions[k]? = some c →
        ∃ p, r.positives[k]? = some p := by
      intro k c hk
      obtain ⟨hlt, -⟩ := List.getElem?_eq_some_iff.mp hk
      exact ⟨_, List.getElem?_eq_getElem (hlen ▸ hlt)⟩
    obtain ⟨p, hp⟩ := hpositive hi
    obtain ⟨q, hq⟩ := hpositive hj
    refine hne ?_
    rw [hp, hq]
    exact congrArg some (hagree (c, p) (hmem.mpr ⟨i, hi, hp⟩) (d, q) (hmem.mpr ⟨j, hj, hq⟩) hterm)
  · refine fun h => ⟨nofun, ?_⟩
    rintro ⟨c, p⟩ hc ⟨d, q⟩ hd hterm
    obtain ⟨i, hi, hp⟩ := hmem.mp hc
    obtain ⟨j, hj, hq⟩ := hmem.mp hd
    by_contra hne
    exact h ⟨i, j, c, d, hi, hj, hterm, by rw [hp, hq]; exact fun heq => hne (Option.some.inj heq)⟩

theorem checkSplit_cases (hlen : r.conditions.length = r.positives.length) :
    (r.checkSplit = .ok () ∧ (r.IsSplit → ¬ r.Ambiguous)) ∨
      ∃ cause, r.checkSplit = .error (.invalidArgument cause) ∧ r.IsSplit ∧ r.Ambiguous := by
  unfold checkSplit
  cases hfield : r.splitField? with
  | none =>
    refine .inl ⟨rfl, fun hsplit => ?_⟩
    rw [← isSome_splitField?, hfield] at hsplit
    cases hsplit
  | some field =>
    have hsplit : r.IsSplit := isSome_splitField?.mp (by rw [hfield]; rfl)
    rcases checkDestinations_cases r field [] (r.conditions.zip r.positives) with
      ⟨hok, hagree⟩ | ⟨cause, herr, hagree⟩
    · exact .inl ⟨hok, fun _ => (agreeing_zip hlen).mp hagree⟩
    · rw [agreeing_zip hlen, not_not] at hagree
      exact .inr ⟨cause, herr, hsplit, hagree⟩

theorem checkSplits_cases (hlen : ∀ r ∈ rules, r.conditions.length = r.positives.length) :
    (checkSplits rules = .ok () ∧ ∀ r ∈ rules, r.IsSplit → ¬ r.Ambiguous) ∨
      ∃ cause, checkSplits rules = .error (.invalidArgument cause) ∧
        ∃ r ∈ rules, r.IsSplit ∧ r.Ambiguous := by
  unfold checkSplits
  induction rules with
  | nil => exact .inl ⟨rfl, by simp⟩
  | cons r rules ih =>
    obtain ⟨hr, hrules⟩ := List.forall_mem_cons.mp hlen
    rw [show (r :: rules).forM checkSplit = (r.checkSplit >>= fun _ => rules.forM checkSplit) from
      rfl]
    rcases checkSplit_cases hr with ⟨hok, hfit⟩ | ⟨cause, herr, hsplit, hambiguous⟩
    · rw [hok]
      rcases ih hrules with ⟨hok, hrest⟩ | ⟨cause, herr, r', hr', hbad⟩
      · exact .inl ⟨hok, List.forall_mem_cons.mpr ⟨hfit, hrest⟩⟩
      · exact .inr ⟨cause, herr, r', List.mem_cons_of_mem _ hr', hbad⟩
    · rw [herr]
      exact .inr ⟨cause, rfl, r, List.mem_cons_self, hsplit, hambiguous⟩

/-- Rules are refused for a bad argument if they are unfit, and only then. -/
theorem checkMultiRules_cases (rules : List MultiRule) :
    (∃ highest, Regroup.checkMultiRules rules = .ok highest ∧ ¬ Unfit rules) ∨
      ∃ cause, Regroup.checkMultiRules rules = .error (.invalidArgument cause) ∧ Unfit rules := by
  unfold Regroup.checkMultiRules checkTargets
  cases hc : checkTargetsFrom 0 [] rules with
  | error e =>
    obtain ⟨⟨cause, rfl⟩, hnot⟩ := checkTargetsFrom_error hc
    refine .inr ⟨cause, rfl, unfit_of_not_checked fun h => hnot ⟨h, fun _ _ => List.not_mem_nil⟩⟩
  | ok u =>
    obtain ⟨hchecked, -⟩ := checkTargetsFrom_ok hc
    rcases checkSplits_cases hchecked.length_eq with ⟨hok, hfit⟩ | ⟨cause, herr, r, hr, hs, ha⟩
    · refine .inl ⟨highestTarget rules, ?_, ?_⟩
      · simp only [hok]
        rfl
      · rintro (⟨hr, h⟩ | ⟨hr, h⟩ | h | ⟨hr, hs, ha⟩)
        · exact h (hchecked.length_eq _ hr)
        · exact hchecked.target_ne_zero _ hr h
        · exact h hchecked.nodup
        · exact hfit _ hr hs ha
    · refine .inr ⟨cause, ?_, .ambiguous hr hs ha⟩
      simp only [herr]
      rfl

/-! ### Lists that keep every group -/

/-- Every group but 0 is targeted by a rule whose outcomes are all that group. -/
def Keeps (rules : List MultiRule) (numGroups : Nat) : Prop :=
  ∀ group, 0 < group → group < numGroups →
    ∃ r ∈ rules, r.target = group ∧ r.negative = group ∧ ∀ p ∈ r.positives, p = group

theorem isIdentity_iff : r.isIdentity = true ↔
    r.negative = r.target ∧ ∀ p ∈ r.positives, p = r.target := by
  simp only [isIdentity, Bool.and_eq_true, beq_iff_eq, List.all_eq_true]

/-- The rules that target a group between 1 and `numGroups` are as many as there are such groups
just if every one of these groups has a rule. -/
theorem Checked.isIdentityList_iff (hc : Checked rules) {numGroups : Nat} (hn : 0 < numGroups) :
    isIdentityList rules numGroups = true ↔ Keeps rules numGroups := by
  constructor
  · intro hid group h0 hlt
    obtain ⟨r, hr, rfl, hrid⟩ := hc.rule_of_isIdentityList hid (Nat.ne_of_gt h0) hlt
    exact ⟨r, hr, rfl, isIdentity_iff.mp hrid⟩
  · intro hkeeps
    have hnodup : ((rules.filter (·.target < numGroups)).map (·.target)).Nodup :=
      hc.nodup.sublist (List.filter_sublist.map _)
    have hmem : ∀ y, y ∈ (rules.filter (·.target < numGroups)).map (·.target) ↔
        y ∈ List.range' 1 (numGroups - 1) := by
      intro y
      rw [List.mem_range'_1]
      constructor
      · intro hy
        obtain ⟨r, hr, rfl⟩ := List.mem_map.mp hy
        obtain ⟨hr, hlt⟩ := List.mem_filter.mp hr
        have hne := hc.target_ne_zero r hr
        simp only [decide_eq_true_eq] at hlt
        omega
      · rintro ⟨h1, h2⟩
        obtain ⟨r, hr, rfl, -⟩ := hkeeps y (by omega) (by omega)
        exact List.mem_map_of_mem (List.mem_filter.mpr ⟨hr, by simpa using by omega⟩)
    have hlen := ((List.perm_ext_iff_of_nodup hnodup List.nodup_range').mpr hmem).length_eq
    rw [List.length_map, List.length_range'] at hlen
    simp only [isIdentityList, Bool.and_eq_true, List.all_eq_true, beq_iff_eq]
    refine ⟨fun r hr => ?_, by omega⟩
    obtain ⟨hr, hlt⟩ := List.mem_filter.mp hr
    obtain ⟨r', hr', htarget, hneg, hpos⟩ :=
      hkeeps r.target (Nat.pos_of_ne_zero (hc.target_ne_zero r hr)) (of_decide_eq_true hlt)
    -- the rule for the group is this one
    have hfind := hc.find?_eq hr'
    rw [htarget, hc.find?_eq hr, Option.some_inj] at hfind
    subst hfind
    exact isIdentity_iff.mpr ⟨hneg, hpos⟩

theorem Keeps.mono {numGroups : Nat} {others : List MultiRule} (hkeeps : Keeps rules numGroups)
    (h : ∀ r ∈ rules, r.target < numGroups → r ∈ others) : Keeps others numGroups := by
  intro group h0 hlt
  obtain ⟨r, hr, rfl, houtcomes⟩ := hkeeps group h0 hlt
  exact ⟨r, h r hr hlt, rfl, houtcomes⟩

/-- What it takes for a list to be recognised as the identity: that it keeps every group that there
is. Rules of other groups do not matter, and documents of these groups stay where they are, so that
a pass that is skipped would have changed nothing. -/
theorem isIdentityList_meaning {highest numGroups : Nat} (h : checkTargets rules = .ok highest)
    (hn : 1 ≤ numGroups) :
    (isIdentityList rules numGroups = true ↔ Keeps rules numGroups) ∧
    (∀ others top, checkTargets others = .ok top →
      (∀ r : MultiRule, r.target < numGroups → (r ∈ others ↔ r ∈ rules)) →
      isIdentityList others numGroups = isIdentityList rules numGroups) ∧
    (isIdentityList rules numGroups = true → ∀ (shard : Shard) (groups : List Nat),
      (∀ group ∈ groups, group < numGroups) →
      Meaning.multiRules? shard groups rules = some groups) := by
  obtain ⟨hc, -⟩ := checkTargets_ok h
  refine ⟨hc.isIdentityList_iff hn, fun others top ho hsame => ?_, fun hid shard groups hlt => ?_⟩
  · obtain ⟨hco, -⟩ := checkTargets_ok ho
    rw [Bool.eq_iff_iff, hco.isIdentityList_iff hn, hc.isIdentityList_iff hn]
    exact ⟨fun hk => hk.mono fun r hr hlt => (hsame r hlt).mp hr,
      fun hk => hk.mono fun r hr hlt => (hsame r hlt).mpr hr⟩
  · exact Meaning.multiRules?_eq_self fun group hgroup doc =>
      hc.target?_of_isIdentityList hid (hlt group hgroup) shard doc

/-- Rules that keep groups 1 and 2, and one that empties group 7. -/
def settled : List MultiRule :=
  [⟨1, 1, [1], [⟨"age", .int 10, false⟩]⟩, ⟨2, 2, [], []⟩, ⟨7, 0, [5], [⟨"age", .int 10, true⟩]⟩]

/-- Groups 0 to 2 stay, whatever the rule for group 7 does. Up to that group they do not. -/
theorem isIdentityList_meaning_settled :
    (isIdentityList settled 3 = true ∧ Keeps settled 3 ∧
      isIdentityList (settled.take 2) 3 = true ∧
      Meaning.multiRules? ⟨4, [("age", ⟨[(10, [1, 2])]⟩)], []⟩ [0, 1, 2, 1] settled =
        some [0, 1, 2, 1]) ∧
    ¬ Keeps settled 8 := by
  have hchecked : checkTargets settled = .ok 7 := rfl
  obtain ⟨hthree, hothers, hstay⟩ := isIdentityList_meaning hchecked (show 1 ≤ 3 by decide)
  obtain ⟨height, -, -⟩ := isIdentityList_meaning hchecked (show 1 ≤ 8 by decide)
  have hid : isIdentityList settled 3 = true := by decide
  have htake : isIdentityList (settled.take 2) 3 = isIdentityList settled 3 := by
    refine hothers (settled.take 2) 2 rfl fun r hlt => ⟨List.mem_of_mem_take, fun hr => ?_⟩
    simp only [settled, List.mem_cons, List.not_mem_nil, or_false] at hr
    rcases hr with rfl | rfl | rfl
    · exact List.mem_cons_self
    · exact List.mem_cons_of_mem _ List.mem_cons_self
    · exact absurd hlt (by decide)
  refine ⟨⟨hid, hthree.mp hid, htake.trans hid, hstay hid _ _ (by decide)⟩, fun hkeeps => ?_⟩
  exact absurd (height.mpr hkeeps) (by decide)

end Cohort.MultiRule

namespace Cohort.Rule

open MultiRule (Checked)

/-- The ways in which a list of rules is refused. -/
inductive Unfit (rules : List Rule) : Prop
  | zero {r : Rule} (hr : r ∈ rules) (h : r.target = 0)
  | shared (h : ¬ (rules.map (·.target)).Nodup)

variable {rules : List Rule}

/-- Lists of one condition leave only the targets to be refused. -/
theorem unfit_toMulti : MultiRule.Unfit (rules.map toMulti) ↔ Unfit rules := by
  have htargets : (rules.map toMulti).map (·.target) = rules.map (·.target) := by
    rw [List.map_map]
    rfl
  constructor
  · rintro (⟨hr, h⟩ | ⟨hr, h⟩ | h | ⟨hr, -, i, j, c, d, hi, hj, -, hne⟩)
    · obtain ⟨r, -, rfl⟩ := List.mem_map.mp hr
      exact absurd rfl h
    · obtain ⟨r, hmem, rfl⟩ := List.mem_map.mp hr
      exact .zero hmem h
    · exact .shared (htargets ▸ h)
    · obtain ⟨r, -, rfl⟩ := List.mem_map.mp hr
      obtain ⟨hi, -⟩ := List.getElem?_eq_some_iff.mp hi
      obtain ⟨hj, -⟩ := List.getElem?_eq_some_iff.mp hj
      refine absurd (congrArg (r.toMulti.positives[·]?) ?_) hne
      exact (Nat.lt_one_iff.mp hi).trans (Nat.lt_one_iff.mp hj).symm
  · rintro (⟨hr, h0⟩ | h)
    · exact .zero (List.mem_map_of_mem hr) h0
    · exact .shared (htargets.symm ▸ h)

/-- Both kinds of rules are refused for the same targets. -/
theorem checkTargets_iff {seen : List Nat} (i : Nat) : checkTargets seen rules = .ok () ↔
    MultiRule.checkTargetsFrom i seen (rules.map toMulti) = .ok () := by
  induction rules generalizing i seen with
  | nil => exact Iff.rfl
  | cons r rules ih =>
    rw [checkTargets, List.map_cons, MultiRule.checkTargetsFrom]
    have hstep : ∀ {b : Bool} {c c' : ArgumentError} {f f' : Unit → Except Error Unit},
        (f () = .ok () ↔ f' () = .ok ()) →
        ((require b c >>= f) = .ok () ↔ (require b c' >>= f') = .ok ()) := by
      intro b c c' f f' h
      cases b with
      | false => exact ⟨fun hok => (by cases hok), fun hok => (by cases hok)⟩
      | true => exact h
    show _ ↔ (require (decide (1 = 1)) _ >>= _) = _
    exact hstep (hstep (ih (i + 1)))

theorem checkTargets_error {seen : List Nat} {e : Error}
    (h : checkTargets seen rules = .error e) : ∃ cause, e = .invalidArgument cause := by
  induction rules generalizing seen with
  | nil => cases h
  | cons r rules ih =>
    rw [checkTargets] at h
    rcases require_bind_error h with ⟨-, rfl⟩ | ⟨-, h⟩
    · exact ⟨_, rfl⟩
    rcases require_bind_error h with ⟨-, rfl⟩ | ⟨-, h⟩
    · exact ⟨_, rfl⟩
    · exact ih h

/-- Rules are refused for a bad argument if a target is 0 or shared, and only then. -/
theorem live_cases (rules : List Rule) (numGroups : Nat) :
    (live rules numGroups = .ok (rules.filter (·.target < numGroups)) ∧
      Checked (rules.map toMulti) ∧ ¬ Unfit rules) ∨
    ∃ cause, live rules numGroups = .error (.invalidArgument cause) ∧ Unfit rules := by
  unfold live
  cases hcheck : checkTargets [] rules with
  | ok u =>
    obtain ⟨hc, -⟩ := MultiRule.checkTargetsFrom_ok ((checkTargets_iff 0).mp hcheck)
    refine .inl ⟨rfl, hc, ?_⟩
    rintro (⟨hr, h0⟩ | h)
    · exact hc.target_ne_zero _ (List.mem_map_of_mem hr) h0
    · have hnodup := hc.nodup
      rw [List.map_map] at hnodup
      exact h hnodup
  | error e =>
    obtain ⟨cause, rfl⟩ := checkTargets_error hcheck
    refine .inr ⟨cause, rfl, unfit_toMulti.mp (MultiRule.unfit_of_not_checked fun hc => ?_)⟩
    cases hmulti : MultiRule.checkTargetsFrom 0 [] (rules.map toMulti) with
    | ok u =>
      rw [(checkTargets_iff 0).mpr hmulti] at hcheck
      cases hcheck
    | error e =>
      exact (MultiRule.checkTargetsFrom_error hmulti).2 ⟨hc, fun _ _ => List.not_mem_nil⟩

/-- Leaving out the rules of groups that do not exist changes nothing for those that do. -/
theorem forGroup?_filter {numGroups group : Nat} (hgroup : group < numGroups) :
    forGroup? (rules.filter (·.target < numGroups)) group = forGroup? rules group := by
  unfold forGroup?
  rw [List.find?_filter]
  refine congrFun (congrArg List.find? (funext fun r => ?_)) rules
  by_cases ht : r.target = group
  · simp [ht, hgroup]
  · simp [ht]

theorem find?_toMulti (rules : List Rule) (group : Nat) :
    (rules.map toMulti).find? (·.target == group) = (forGroup? rules group).map toMulti := by
  rw [List.find?_map]
  rfl

/-- Where a rule sends a document. -/
theorem destination?_toMulti (shard : Shard) (doc : Nat) (r : Rule) :
    Meaning.destination? shard doc r.toMulti =
      some (if Meaning.satisfies shard doc r.condition then r.positive else r.negative) := by
  unfold Meaning.destination? toMulti
  rw [List.findIdx?_cons]
  cases Meaning.satisfies shard doc r.condition <;> rfl

end Cohort.Rule
