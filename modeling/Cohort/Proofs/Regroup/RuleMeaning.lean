import Cohort.Proofs.Regroup.MultiRules
import Cohort.Proofs.Regroup.Rules
import Cohort.Proofs.Regroup.Visits
import Cohort.Proofs.Rule.Fit

/-!
# Single-condition rules — every document goes where its rule sends it

All visits that offer a document something offer the positive group of its group's rule, and one of
them does just if the document satisfies the condition of the rule: no term is left out that could
pass. So the rules do what the same rules with lists of one condition mean, though only the rules of
groups that exist are applied.
-/

namespace Cohort.Regroup

open Marking (visitAt offer? Marked)
open Pass

/-! ### The visits of rules -/

variable {rules : List Rule} {rule : Rule} {doc group : Nat}

section Fields

variable {τ : Type} {field : String} {isInt : Bool} {holds : Condition → τ → Bool}

/-- The visits of the documents of a field's entries. -/
def fieldVisits (rules : List Rule) (field : String) (isInt : Bool) (holds : Condition → τ → Bool)
    (entries : List (τ × List Nat)) : List (Nat × (Nat → Option Nat)) :=
  entries.flatMap fun e => e.2.map (·, ruleDestination rules field isInt (holds · e.1))

theorem foldlM_fieldVisits {chunk : Nat} (hchunk : 0 < chunk) (entries : List (τ × List Nat))
    (m : Marking) : entries.foldlM (fun (m : Marking) e =>
        m.visitAll? chunk (ruleDestination rules field isInt (holds · e.1)) e.2) m =
      (fieldVisits rules field isInt holds entries).foldlM visitAt m := by
  unfold fieldVisits
  rw [foldlM_flatMap]
  refine foldlM_ext (fun e _ t => ?_) m
  rw [Marking.visitAll?_eq hchunk, List.foldlM_map]
  rfl

theorem ruleDestination_eq (hr : Rule.forGroup? rules group = some rule)
    {holds : Condition → Bool} : ruleDestination rules field isInt holds group =
      if rule.condition.field = field ∧ rule.condition.isInt = isInt ∧ holds rule.condition = true
      then some rule.positive else none := by
  unfold ruleDestination
  rw [hr]
  show (if _ then _ else _) = _
  simp only [Bool.and_eq_true, decide_eq_true_eq, beq_iff_eq, and_assoc]

theorem mem_fieldVisits {entries : List (τ × List Nat)} {v : Nat × (Nat → Option Nat)} :
    v ∈ fieldVisits rules field isInt holds entries ↔ ∃ e ∈ entries, v.1 ∈ e.2 ∧
      v.2 = ruleDestination rules field isInt (holds · e.1) := by
  unfold fieldVisits
  simp only [List.mem_flatMap, List.mem_map]
  constructor
  · rintro ⟨e, he, d, hd, rfl⟩
    exact ⟨e, he, hd, rfl⟩
  · rintro ⟨e, he, hd, hv⟩
    exact ⟨e, he, v.1, hd, Prod.ext rfl hv.symm⟩

/-- Only documents that pass are offered something, and that is the positive group. -/
theorem passes_of_fieldVisits [LinearOrder τ] {p : Postings τ} {numDocs : Nat}
    (hp : p.Ascending numDocs) {selection : TermSelection τ}
    (hr : Rule.forGroup? rules group = some rule) {v : Nat × (Nat → Option Nat)}
    (hv : v ∈ fieldVisits rules field isInt holds (selection.visits p)) {y : Nat}
    (hy : v.2 group = some y) : y = rule.positive ∧ rule.condition.field = field ∧
      rule.condition.isInt = isInt ∧ ((p.valuesOf v.1).any (holds rule.condition)) = true := by
  obtain ⟨e, he, hd, hdest⟩ := mem_fieldVisits.mp hv
  rw [hdest, ruleDestination_eq hr] at hy
  split_ifs at hy with hcond
  obtain ⟨hfield, hint, hholds⟩ := hcond
  cases hy
  refine ⟨rfl, hfield, hint, List.any_eq_true.mpr ⟨e.1, ?_, hholds⟩⟩
  exact Postings.mem_valuesOf.mpr ⟨e.2, mem_of_mem_visits hp.terms he, hd⟩

/-- The terms that pass are among those that are visited. -/
theorem exists_fieldVisit [LinearOrder τ] {p : Postings τ} {numDocs : Nat}
    (hp : p.Ascending numDocs) {tests : List (τ × Bool)}
    (hr : Rule.forGroup? rules group = some rule)
    (htests : ∀ u, holds rule.condition u = true → ∃ t, (t, rule.condition.inequality) ∈ tests ∧
      (FieldTest.mk 0 0 t rule.condition.inequality).holds u = true)
    (hfield : rule.condition.field = field) (hint : rule.condition.isInt = isInt)
    (hany : ((p.valuesOf doc).any (holds rule.condition)) = true) :
    ∃ v ∈ fieldVisits rules field isInt holds ((TermSelection.ofConditions tests).visits p),
      v.1 = doc ∧ (v.2 group).isSome := by
  obtain ⟨u, hu, hholds⟩ := List.any_eq_true.mp hany
  obtain ⟨docs, he, hd⟩ := Postings.mem_valuesOf.mp hu
  obtain ⟨t, ht, hpass⟩ := htests u hholds
  have hvisit := mem_visits_of_condition hp.terms he ht hpass
  refine ⟨(doc, _), mem_fieldVisits.mpr ⟨(u, docs), hvisit, hd, rfl⟩, rfl, ?_⟩
  show (ruleDestination rules field isInt (holds · u) group).isSome = true
  rw [ruleDestination_eq hr, if_pos ⟨hfield, hint, hholds⟩]
  rfl

end Fields

variable {shard : Shard} {feed : Feed} {g g' : Grouping}

/-- The visits of all integer fields. -/
def intVisits (shard : Shard) (rules : List Rule) : List (Nat × (Nat → Option Nat)) :=
  let conditions := rules.map (·.condition)
  (fieldNames true conditions).flatMap fun field =>
    fieldVisits rules field true Condition.matchesInt
      ((TermSelection.ofConditions (intTests field conditions)).visits (shard.intPostings field))

/-- The visits of all string fields. -/
def stringVisits (shard : Shard) (rules : List Rule) : List (Nat × (Nat → Option Nat)) :=
  let conditions := rules.map (·.condition)
  (fieldNames false conditions).flatMap fun field =>
    fieldVisits rules field false Condition.matchesString
      ((TermSelection.ofConditions (stringTests field conditions)).visits
        (shard.stringPostings field))

/-- Applying rules is the loop over their visits, and then the rest. -/
theorem exists_of_applyRules? (hchunk : 0 < feed.chunk)
    (h : applyRules? feed rules g = some g') :
    ∃ m, Marked g (intVisits feed.shard rules ++ stringVisits feed.shard rules) m ∧
      m.finish? feed.chunk (fun group =>
        ((Rule.forGroup? rules group).map (·.negative)).getD 0) = some g' := by
  obtain ⟨m1, hm1, h⟩ := Option.bind_eq_some_iff.mp h
  obtain ⟨m2, hm2, h⟩ := Option.bind_eq_some_iff.mp h
  have hints : (intVisits feed.shard rules).foldlM visitAt (.start g feed.numDocs) = some m1 := by
    unfold intVisits
    rw [foldlM_flatMap, ← hm1]
    exact foldlM_ext (fun field _ t => (foldlM_fieldVisits hchunk _ t).symm) _
  have hstrings : (stringVisits feed.shard rules).foldlM visitAt m1 = some m2 := by
    unfold stringVisits
    rw [foldlM_flatMap, ← hm2]
    exact foldlM_ext (fun field _ t => (foldlM_fieldVisits hchunk _ t).symm) _
  have hrun : (intVisits feed.shard rules ++ stringVisits feed.shard rules).foldlM visitAt
      (.start g feed.numDocs) = some m2 := by
    rw [List.foldlM_append, hints]
    exact hstrings
  exact ⟨m2, Marked.run hrun, h⟩

theorem intTests_of_matchesInt {c : Condition} {conditions : List Condition} (hc : c ∈ conditions)
    {u : Int} (hu : c.matchesInt u = true) :
    ∃ t, (t, c.inequality) ∈ intTests c.field conditions ∧
      (FieldTest.mk 0 0 t c.inequality).holds u = true := by
  obtain ⟨field, term, inequality⟩ := c
  cases term with
  | str t => cases hu
  | int t =>
    refine ⟨t, List.mem_filterMap.mpr
      ⟨_, List.mem_filter.mpr ⟨hc, beq_self_eq_true field⟩, rfl⟩, ?_⟩
    rw [← matchesInt_eq field]
    exact hu

theorem stringTests_of_matchesString {c : Condition} {conditions : List Condition}
    (hc : c ∈ conditions) {u : String} (hu : c.matchesString u = true) :
    ∃ t, (t, c.inequality) ∈ stringTests c.field conditions ∧
      (FieldTest.mk 0 0 t c.inequality).holds u = true := by
  obtain ⟨field, term, inequality⟩ := c
  cases term with
  | int t => cases hu
  | str t =>
    refine ⟨t, List.mem_filterMap.mpr
      ⟨_, List.mem_filter.mpr ⟨hc, beq_self_eq_true field⟩, rfl⟩, ?_⟩
    rw [← matchesString_eq field]
    exact hu

/-- A document is offered the positive group of its group's rule if it satisfies the condition. -/
theorem offer?_ruleVisits (hs : shard.Ascending) (hr : Rule.forGroup? rules group = some rule) :
    offer? (intVisits shard rules ++ stringVisits shard rules) doc group =
      if Meaning.satisfies shard doc rule.condition = true then some rule.positive else none := by
  have hmem : rule.condition ∈ rules.map (·.condition) :=
    List.mem_map_of_mem (List.mem_of_find?_eq_some hr)
  have hoffered : ∀ v ∈ intVisits shard rules ++ stringVisits shard rules, ∀ y,
      v.2 group = some y →
        y = rule.positive ∧ Meaning.satisfies shard v.1 rule.condition = true := by
    intro v hv y hy
    unfold Meaning.satisfies
    rcases List.mem_append.mp hv with hv | hv
    · obtain ⟨field, -, hv⟩ := List.mem_flatMap.mp hv
      obtain ⟨hpos, rfl, hint, hany⟩ := passes_of_fieldVisits (hs.intPostings field) hr hv hy
      exact ⟨hpos, by rwa [if_pos hint]⟩
    · obtain ⟨field, -, hv⟩ := List.mem_flatMap.mp hv
      obtain ⟨hpos, rfl, hint, hany⟩ := passes_of_fieldVisits (hs.stringPostings field) hr hv hy
      exact ⟨hpos, by rwa [if_neg (by simp [hint])]⟩
  refine Marking.offer?_eq_of_all (fun v hv _ y hy => (hoffered v hv y hy).1) ⟨?_, fun hsat => ?_⟩
  · rintro ⟨v, hv, rfl, hsome⟩
    obtain ⟨y, hy⟩ := Option.isSome_iff_exists.mp hsome
    exact (hoffered v hv y hy).2
  · unfold Meaning.satisfies at hsat
    split_ifs at hsat with hint
    · obtain ⟨v, hv, hoffer⟩ := exists_fieldVisit (hs.intPostings rule.condition.field) hr
        (fun u hu => intTests_of_matchesInt hmem hu) rfl hint hsat
      exact ⟨v, List.mem_append_left _ (List.mem_flatMap.mpr ⟨_, mem_fieldNames hmem hint, hv⟩),
        hoffer⟩
    · have hstr : rule.condition.isInt = false := by simpa using hint
      obtain ⟨v, hv, hoffer⟩ := exists_fieldVisit (hs.stringPostings rule.condition.field) hr
        (fun u hu => stringTests_of_matchesString hmem hu) rfl hstr hsat
      exact ⟨v, List.mem_append_right _ (List.mem_flatMap.mpr ⟨_, mem_fieldNames hmem hstr, hv⟩),
        hoffer⟩

/-- Documents of a group without a rule are offered nothing. -/
theorem offer?_ruleVisits_none (hr : Rule.forGroup? rules group = none) :
    offer? (intVisits shard rules ++ stringVisits shard rules) doc group = none := by
  have hnone : ∀ v ∈ intVisits shard rules ++ stringVisits shard rules, v.2 group = none := by
    intro v hv
    unfold intVisits stringVisits at hv
    simp only [List.mem_append, List.mem_flatMap, mem_fieldVisits] at hv
    rcases hv with ⟨field, -, e, -, -, hdest⟩ | ⟨field, -, e, -, -, hdest⟩ <;>
      rw [hdest, ruleDestination, hr] <;> rfl
  refine List.findSome?_eq_none_iff.mpr fun v hv => ?_
  rw [hnone v hv, ite_self]

/-- Applied to a grouping, rules send every document where they mean to. -/
theorem get?_applyRules? (hs : feed.shard.Ascending) (hchunk : 0 < feed.chunk)
    (h : applyRules? feed rules g = some g') {x : Nat} (hx : g.get? doc = some x) :
    g'.get? doc = Meaning.target? feed.shard (rules.map Rule.toMulti) doc x := by
  obtain ⟨m, hm, hfinish⟩ := exists_of_applyRules? hchunk h
  rw [hm.get?_finish? hfinish hx]
  unfold Meaning.target?
  rw [Rule.find?_toMulti]
  cases hr : Rule.forGroup? rules x with
  | none =>
    rw [offer?_ruleVisits_none hr]
    rfl
  | some rule =>
    show _ = Meaning.destination? feed.shard doc rule.toMulti
    rw [offer?_ruleVisits hs hr, Rule.destination?_toMulti]
    split_ifs <;> rfl

/-! ### The whole regroup -/

/-- A regroup by rules is what the rules mean; refused, it moves no document. -/
theorem ensures_byRules (hg : g.WellFormed feed.numDocs) (rules : List Rule) :
    Ensures (byRules feed rules) g (Applied feed (rules.map Rule.toMulti) g)
      (fun _ g' => g.Unmoved feed.numDocs g') := by
  refine ensures_unlessFilteredOut (fun hle => ?_) fun hn => ensures_scratch ?_ fun _ => hg.unmoved
  · exact ⟨hg, rfl, fun _ _ => Meaning.multiRules?_filteredOut hg hle feed.shard _,
      fun _ _ => .refl g⟩
  refine ensures_bind (ensures_orRefused (fun live hlive => ?_) fun _ => hg.unmoved)
  refine ensures_bind (ensures_makeRoom hg.len_le ?_ fun _ => hg.unmoved)
  refine ensures_scratch ?_ fun _ => hg.unmoved_roomFor _
  obtain ⟨rfl, hc⟩ : live = rules.filter (·.target < g.numGroups) ∧
      MultiRule.Checked (rules.map Rule.toMulti) := by
    rcases Rule.live_cases rules g.numGroups with ⟨hok, hc, -⟩ | ⟨cause, herr, -⟩
    · exact ⟨Except.ok.inj (hlive.symm.trans hok), hc⟩
    · cases hlive.symm.trans herr
  refine ensures_rewrite (hg.toRoomy.roomFor _)
    (fun g' hg' => overwrites_applyRules? (fun x hx => Grouping.le_capacity_roomFor g hx) hg')
    fun g1 g' hg1 hwf hget => ?_
  have htarget : feed.shard.Ascending → 0 < feed.chunk → ∀ d x, g.get? d = some x →
      g'.get? d = Meaning.target? feed.shard (rules.map Rule.toMulti) d x := by
    intro hs hchunk d x hx
    rw [hget, get?_applyRules? hs hchunk hg1 ((Grouping.get?_roomFor g _ d).trans hx)]
    unfold Meaning.target?
    rw [Rule.find?_toMulti, Rule.find?_toMulti, Rule.forGroup?_filter (hg.lt_numGroups d x hx)]
  refine ⟨hwf, rfl, fun hs hchunk => ?_, fun hs hchunk d hd => ?_⟩
  · exact Meaning.multiRules?_eq hg hn (hwf.len_eq.trans hg.len_eq.symm) (htarget hs hchunk)
  · rw [htarget hs hchunk d 0 hd, Meaning.target?, hc.find?_zero]

theorem regroups_byRules (hg : g.WellFormed feed.numDocs) (rules : List Rule) :
    Regroups feed.numDocs (byRules feed rules) g :=
  (ensures_byRules hg rules).mono fun _ _ h => ⟨h.wellFormed, h.numGroups_eq⟩

/-- As long as there is memory, rules are refused if a target is 0 or shared, unless no group is
left to move. -/
theorem completes_byRules (hg : g.Counted feed.numDocs) (rules : List Rule) :
    Completes (byRules feed rules) g
      (fun _ _ => 1 < g.numGroups → ¬ Rule.Unfit rules)
      (fun e _ => (∃ s, e = .outOfMemory s) ∨
        (1 < g.numGroups ∧ Rule.Unfit rules ∧ ∃ cause, e = .invalidArgument cause))
      True := by
  refine completes_unlessFilteredOut (fun hle hn => absurd hn (Nat.not_lt_of_le hle)) fun hn => ?_
  refine completes_scratch ?_ fun s => .inl ⟨s, rfl⟩
  rcases Rule.live_cases rules g.numGroups with ⟨hlive, -, hfit⟩ | ⟨cause, hlive, hunfit⟩
  · rw [hlive]
    refine completes_bind (completes_pure ?_)
    refine completes_bind (completes_makeRoom hg ?_ fun s => .inl ⟨s, rfl⟩)
    refine completes_scratch ?_ fun s => .inl ⟨s, rfl⟩
    refine completes_bind (completes_change (fun g' hg' => ⟨?_, ?_⟩) fun _ => trivial)
    · exact Grouping.bytes_eq_of_frame (overwrites_applyRules? (fun _ hx => hx) hg').frame_eq
    · exact completes_recount (fun _ _ _ => hfit) fun _ => trivial
  · rw [hlive]
    exact completes_bind (completes_refusal (.inr ⟨hn, hunfit, cause, rfl⟩))

end Cohort.Regroup
