import Mathlib
import Cohort.Proofs.Session.TermUpdates

/-!
# The meaning of updates — totals by what a document holds

An update by term adds to a document the deltas of all conditions whose term it holds; within groups
it adds one delta for every term, the last that is listed for its group. In which order fields and
terms are visited, and how often one is listed, makes no difference to these totals.
-/

namespace Cohort

/-- The document holds the term of the condition, in the field of its type. -/
def Condition.HeldBy (shard : Shard) (doc : Nat) (c : Condition) : Prop :=
  match c.term with
  | .int v => v ∈ shard.intValues c.field doc
  | .str v => v ∈ shard.stringValues c.field doc

instance (shard : Shard) (doc : Nat) : ∀ c : Condition, Decidable (c.HeldBy shard doc)
  | ⟨field, .int v, _⟩ => inferInstanceAs (Decidable (v ∈ shard.intValues field doc))
  | ⟨field, .str v, _⟩ => inferInstanceAs (Decidable (v ∈ shard.stringValues field doc))

theorem termsOf_cons {τ π : Type} (read : Term → Option τ) (field : String) (e : Condition × π)
    (entries : List (Condition × π)) : termsOf read field (e :: entries) =
      (if e.1.field = field then ((read e.1.term).map (·, e.2)).toList else []) ++
        termsOf read field entries := by
  obtain ⟨c, payload⟩ := e
  unfold termsOf
  rw [List.filter_cons]
  by_cases h : c.field = field
  · rw [if_pos (beq_iff_eq.mpr h), if_pos h, List.filterMap_cons]
    simp only
    cases read c.term <;> rfl
  · rw [if_neg (by simpa using h), if_neg h, List.nil_append]

namespace Counters

variable {shard : Shard} {numDocs d x : Nat} {g : Grouping}

/-! ### One field -/

section Field

variable {τ π : Type} [LinearOrder τ] {p : Postings τ}

/-- What the lists of a field add in all: for every listed term, what comes with it if the document
holds the term. -/
theorem totalFor_visitedLists (hp : p.Ascending numDocs) {f : List Nat × π → List (Nat × Int)}
    (worth : π → Int)
    (hf : ∀ v : List Nat × π, v.1.Nodup → totalFor d (f v) = if d ∈ v.1 then worth v.2 else 0)
    (terms : List (τ × π)) :
    totalFor d ((visitedLists p terms).flatMap f) =
      (terms.map fun e => if e.1 ∈ p.valuesOf d then worth e.2 else 0).sum := by
  -- the lists are sorted before they are visited, which the sum does not show
  have hlists : (visitedLists p terms).Perm
      (terms.filterMap fun e => (p.find? e.1).map (·, e.2)) :=
    (List.mergeSort_perm _ _).filterMap _
  rw [totalFor_flatMap, (hlists.map _).sum_eq]
  clear hlists
  induction terms with
  | nil => rfl
  | cons e terms ih =>
    rw [List.map_cons, List.sum_cons, ← ih]
    cases hfind : p.find? e.1 with
    | none =>
      have hnot : e.1 ∉ p.valuesOf d := by
        rw [Postings.mem_valuesOf]
        rintro ⟨docs, hdocs, -⟩
        rw [(Postings.find?_eq_some hp.terms).mpr hdocs] at hfind
        cases hfind
      rw [List.filterMap_cons_none (by rw [hfind, Option.map_none]), if_neg hnot, Int.zero_add]
    | some docs =>
      have hlist := (Postings.find?_eq_some hp.terms).mp hfind
      have hheld : e.1 ∈ p.valuesOf d ↔ d ∈ docs := by
        rw [Postings.mem_valuesOf]
        constructor
        · rintro ⟨docs', hdocs', hd⟩
          rw [(Postings.find?_eq_some hp.terms).mpr hdocs'] at hfind
          cases hfind
          exact hd
        · exact fun hd => ⟨docs, hlist, hd⟩
      have hnodup : docs.Nodup := (hp.docs _ hlist).imp fun h => h.ne
      rw [List.filterMap_cons_some (by rw [hfind, Option.map_some]), List.map_cons, List.sum_cons,
        hf (docs, e.2) hnodup]
      simp only [hheld]

/-- Additions of which every document gets one at most. -/
theorem totalFor_filterMap (f : Nat → Option Int) {docs : List Nat} (hdocs : docs.Nodup) :
    totalFor d (docs.filterMap fun doc => (f doc).map (doc, ·)) =
      if d ∈ docs then (f d).getD 0 else 0 := by
  unfold totalFor
  induction docs with
  | nil => rfl
  | cons doc docs ih =>
    obtain ⟨hdoc, hdocs⟩ := List.nodup_cons.mp hdocs
    have ih := ih hdocs
    rw [List.filterMap_cons]
    by_cases h : doc = d
    · subst h
      rw [if_neg hdoc] at ih
      cases hf : f doc <;> simp [ih]
    · have hmem : d ∈ doc :: docs ↔ d ∈ docs := by simp [Ne.symm h]
      cases hf : f doc <;> simp [ih, h, hmem]

theorem totalFor_map {docs : List Nat} (hdocs : docs.Nodup) (delta : Int) :
    totalFor d (docs.map (·, delta)) = if d ∈ docs then delta else 0 := by
  rw [← List.filterMap_eq_map]
  exact totalFor_filterMap (fun _ => some delta) hdocs

theorem totalFor_listAdditions (hp : p.Ascending numDocs) (terms : List (τ × Int)) :
    totalFor d (listAdditions p terms) =
      (terms.map fun e => if e.1 ∈ p.valuesOf d then e.2 else 0).sum :=
  totalFor_visitedLists hp id (fun v hv => totalFor_map hv v.2) terms

theorem totalFor_groupAdditions (hx : g.get? d = some x) (delta? : Nat → Option Int)
    {docs : List Nat} (hdocs : docs.Nodup) :
    totalFor d (groupAdditions g delta? docs) = if d ∈ docs then (delta? x).getD 0 else 0 := by
  have hgroups : groupAdditions g delta? docs =
      docs.filterMap fun doc => ((g.get? doc).bind delta?).map (doc, ·) := by
    unfold groupAdditions
    simp only [Option.map_bind, Function.comp_def]
  rw [hgroups, totalFor_filterMap _ hdocs, hx, Option.bind_some]

end Field

/-! ### By term -/

section Terms

/-- What conditions add to a document: the deltas of those whose term it holds. -/
def gain (shard : Shard) (doc : Nat) (entries : List (Condition × Int)) : Int :=
  ((entries.filter fun e => e.1.HeldBy shard doc).map (·.2)).sum

theorem gain_cons (shard : Shard) (doc : Nat) (e : Condition × Int)
    (entries : List (Condition × Int)) : gain shard doc (e :: entries) =
      (if e.1.HeldBy shard doc then e.2 else 0) + gain shard doc entries := by
  unfold gain
  rw [List.filter_cons]
  by_cases h : e.1.HeldBy shard doc <;> simp [h]

theorem gain_append (shard : Shard) (doc : Nat) (entries entries' : List (Condition × Int)) :
    gain shard doc (entries ++ entries') = gain shard doc entries + gain shard doc entries' := by
  unfold gain
  rw [List.filter_append, List.map_append, List.sum_append]

theorem gain_perm {entries entries' : List (Condition × Int)} (h : entries.Perm entries') :
    gain shard d entries = gain shard d entries' :=
  ((h.filter _).map _).sum_eq

/-- The conditions on one field, strings and integers apart. -/
theorem totalFor_fieldAdditions (hs : shard.Ascending) (entries : List (Condition × Int))
    (field : String) : totalFor d (fieldAdditions shard entries field) =
      gain shard d (entries.filter (·.1.field == field)) := by
  rw [fieldAdditions, totalFor_append, totalFor_listAdditions (hs.stringPostings field),
    totalFor_listAdditions (hs.intPostings field)]
  induction entries with
  | nil => rfl
  | cons e entries ih =>
    obtain ⟨⟨field', term, inequality⟩, delta⟩ := e
    rw [termsOf_cons, termsOf_cons, List.filter_cons]
    by_cases hfield : field' = field
    · subst hfield
      simp only [beq_self_eq_true, if_true, gain_cons, ← ih]
      cases term with
      | int v =>
        simp only [Term.str?, Term.int?, Option.map_none, Option.map_some, Option.toList_none,
          Option.toList_some, List.nil_append, List.singleton_append, List.map_cons, List.sum_cons]
        exact Int.add_left_comm _ _ _
      | str v =>
        simp only [Term.str?, Term.int?, Option.map_none, Option.map_some, Option.toList_none,
          Option.toList_some, List.nil_append, List.singleton_append, List.map_cons, List.sum_cons]
        exact Int.add_assoc _ _ _
    · simp only [hfield, beq_iff_eq, if_false, List.nil_append, ih]

/-- Sorted by field, nothing is lost and nothing counts twice. -/
theorem sum_gain (entries : List (Condition × Int)) {fields : Finset String}
    (h : ∀ e ∈ entries, e.1.field ∈ fields) :
    ∑ field ∈ fields, gain shard d (entries.filter (·.1.field == field)) =
      gain shard d entries := by
  induction entries with
  | nil => exact Finset.sum_const_zero
  | cons e entries ih =>
    obtain ⟨he, hrest⟩ := List.forall_mem_cons.mp h
    have hsplit : ∀ field, gain shard d ((e :: entries).filter (·.1.field == field)) =
        (if e.1.field = field then (if e.1.HeldBy shard d then e.2 else 0) else 0) +
          gain shard d (entries.filter (·.1.field == field)) := by
      intro field
      rw [List.filter_cons]
      by_cases hfield : e.1.field = field
      · rw [if_pos (beq_iff_eq.mpr hfield), if_pos hfield, gain_cons]
      · rw [if_neg (by simpa using hfield), if_neg hfield, Int.zero_add]
    simp only [hsplit]
    rw [Finset.sum_add_distrib, Finset.sum_ite_eq, if_pos he, ih hrest, gain_cons]

theorem totalFor_termAdditions (hs : shard.Ascending) (conditions : List Condition)
    (deltas : List Int) : totalFor d (termAdditions shard conditions deltas) =
      gain shard d (conditions.zip deltas) := by
  have hnodup : (Regroup.distinctSorted (conditions.map (·.field))).Nodup :=
    (Regroup.pairwise_distinctSorted _).imp fun h => h.ne
  have hfields : ∀ e ∈ conditions.zip deltas,
      e.1.field ∈ (Regroup.distinctSorted (conditions.map (·.field))).toFinset := by
    intro e he
    rw [List.mem_toFinset, Regroup.mem_distinctSorted]
    exact List.mem_map_of_mem (List.of_mem_zip he).1
  rw [termAdditions, totalFor_flatMap, ← sum_gain _ hfields, List.sum_toFinset _ hnodup]
  simp only [totalFor_fieldAdditions hs]

end Terms

/-! ### By term within a group -/

section Groups

/-- How the terms of one type are read and made. -/
structure TermKind {τ : Type} (isInt : Bool) (read : Term → Option τ) (make : τ → Term) : Prop where
  read_iff : ∀ t v, read t = some v ↔ t = make v
  isInt_iff : ∀ t, Term.isInt t = isInt ↔ ∃ v, t = make v

theorem termKind_int : TermKind true Term.int? Term.int := by
  refine ⟨fun t v => ?_, fun t => ?_⟩ <;> cases t <;> simp [Term.int?, Term.isInt]

theorem termKind_str : TermKind false Term.str? Term.str := by
  refine ⟨fun t v => ?_, fun t => ?_⟩ <;> cases t <;> simp [Term.str?, Term.isInt]

/-- The last delta that is listed for a condition and a group. -/
def lastFor? (entries : List (Condition × GroupDelta)) (c : Condition) (group : Nat) :
    Option Int :=
  lastOf? ((entries.filter (·.1 = c)).map (·.2)) group

/-- What the entries for a condition add to a document of `group`. -/
def worth (shard : Shard) (entries : List (Condition × GroupDelta)) (doc group : Nat)
    (c : Condition) : Int :=
  if c.HeldBy shard doc then (lastFor? entries c group).getD 0 else 0

variable {τ : Type} [LinearOrder τ] {isInt : Bool} {read : Term → Option τ} {make : τ → Term}
  {postings : String → Postings τ} {entries : List (Condition × GroupDelta)}

/-- What is listed for a term of a field is what is listed for the condition that asks for it. -/
theorem TermKind.map_filter_termsOf (hkind : TermKind isInt read make)
    (heq : ∀ e ∈ entries, e.1.inequality = false) (field : String) (v : τ) :
    ((termsOf read field entries).filter (·.1 = v)).map (·.2) =
      (entries.filter (·.1 = ⟨field, make v, false⟩)).map (·.2) := by
  induction entries with
  | nil => rfl
  | cons e entries ih =>
    obtain ⟨he, hrest⟩ := List.forall_mem_cons.mp heq
    obtain ⟨⟨field', term, inequality⟩, delta⟩ := e
    obtain rfl : inequality = false := he
    rw [termsOf_cons, List.filter_append, List.map_append, ih hrest, List.filter_cons]
    by_cases hfield : field' = field
    · subst hfield
      by_cases hterm : term = make v
      · subst hterm
        simp [(hkind.read_iff (make v) v).mpr rfl]
      · have hread : ∀ w, read term = some w → w ≠ v := by
          rintro w hw rfl
          exact hterm ((hkind.read_iff term w).mp hw)
        cases hw : read term with
        | none => simp [hterm]
        | some w => simp [hterm, hread w hw]
    · simp [hfield]

theorem totalFor_tableAdditions (hx : g.get? d = some x) (hkind : TermKind isInt read make)
    {field : String} (hp : (postings field).Ascending numDocs)
    (hheld : ∀ v, Condition.HeldBy shard d ⟨field, make v, false⟩ ↔
      v ∈ (postings field).valuesOf d)
    (heq : ∀ e ∈ entries, e.1.inequality = false) :
    totalFor d (tableAdditions g (postings field) (termsOf read field entries)) =
      ((Regroup.distinctSorted ((termsOf read field entries).map (·.1))).map fun v =>
        worth shard entries d x ⟨field, make v, false⟩).sum := by
  rw [tableAdditions, totalFor_visitedLists hp (fun deltas => (lastOf? deltas x).getD 0)
    (fun v hv => totalFor_groupAdditions hx _ hv), byTerm, List.map_map]
  refine congrArg List.sum (List.map_congr_left fun v _ => ?_)
  simp only [Function.comp_apply, hkind.map_filter_termsOf heq, worth, lastFor?, hheld]

/-- The conditions that are visited, field by field and term by term. -/
def visitedConditions (read : Term → Option τ) (make : τ → Term)
    (entries : List (Condition × GroupDelta)) (fields : List String) : List Condition :=
  fields.flatMap fun field =>
    (Regroup.distinctSorted ((termsOf read field entries).map (·.1))).map fun v =>
      ⟨field, make v, false⟩

theorem totalFor_tablesAdditions (hx : g.get? d = some x) (hkind : TermKind isInt read make)
    (hp : ∀ field, (postings field).Ascending numDocs)
    (hheld : ∀ field v, Condition.HeldBy shard d ⟨field, make v, false⟩ ↔
      v ∈ (postings field).valuesOf d)
    (heq : ∀ e ∈ entries, e.1.inequality = false) (fields : List String) :
    totalFor d (tablesAdditions g postings read entries fields) =
      ((visitedConditions read make entries fields).map (worth shard entries d x)).sum := by
  rw [tablesAdditions, totalFor_flatMap, visitedConditions]
  induction fields with
  | nil => rfl
  | cons field fields ih =>
    rw [List.map_cons, List.sum_cons, List.flatMap_cons, List.map_append, List.sum_append, ih,
      totalFor_tableAdditions hx hkind (hp field) (hheld field) heq, List.map_map]
    rfl

theorem mem_fieldNames {conditions : List Condition} {field : String} :
    field ∈ Regroup.fieldNames isInt conditions ↔
      ∃ c ∈ conditions, c.term.isInt = isInt ∧ c.field = field := by
  unfold Regroup.fieldNames
  rw [Regroup.mem_distinctSorted, List.mem_map]
  simp only [List.mem_filter, beq_iff_eq, and_assoc]
  rfl

theorem TermKind.nodup_visitedConditions (hkind : TermKind isInt read make)
    (entries : List (Condition × GroupDelta)) {fields : List String} (hfields : fields.Nodup) :
    (visitedConditions read make entries fields).Nodup := by
  have hmake : Function.Injective make := by
    intro v w hvw
    have hv := (hkind.read_iff (make v) v).mpr rfl
    rw [(hkind.read_iff (make v) w).mpr hvw] at hv
    exact (Option.some.inj hv).symm
  refine List.nodup_flatMap.mpr ⟨fun field _ => ?_, hfields.imp fun hne => ?_⟩
  · have hnodup := (Regroup.pairwise_distinctSorted ((termsOf read field entries).map (·.1))).imp
      fun h => h.ne
    exact List.Nodup.map (fun v w hvw => hmake (Condition.mk.inj hvw).2.1) hnodup
  · intro c hc hc'
    obtain ⟨v, -, rfl⟩ := List.mem_map.mp hc
    obtain ⟨w, -, heq⟩ := List.mem_map.mp hc'
    exact hne (Condition.mk.inj heq).1.symm

/-- All conditions of the type are visited. -/
theorem TermKind.mem_visitedConditions (hkind : TermKind isInt read make)
    (heq : ∀ e ∈ entries, e.1.inequality = false) {c : Condition} :
    c ∈ visitedConditions read make entries (Regroup.fieldNames isInt (entries.map (·.1))) ↔
      c ∈ entries.map (·.1) ∧ c.term.isInt = isInt := by
  unfold visitedConditions
  rw [List.mem_flatMap]
  constructor
  · rintro ⟨field, -, hc⟩
    obtain ⟨v, hv, rfl⟩ := List.mem_map.mp hc
    obtain ⟨⟨w, delta⟩, he, rfl⟩ := List.mem_map.mp (Regroup.mem_distinctSorted.mp hv)
    obtain ⟨⟨field', term, inequality⟩, hentry, rfl, hread⟩ := mem_of_mem_termsOf he
    obtain rfl : inequality = false := heq _ hentry
    obtain rfl : term = make w := (hkind.read_iff term w).mp hread
    exact ⟨List.mem_map_of_mem hentry, (hkind.isInt_iff _).mpr ⟨w, rfl⟩⟩
  · rintro ⟨hc, hisInt⟩
    obtain ⟨v, hv⟩ := (hkind.isInt_iff c.term).mp hisInt
    refine ⟨c.field, mem_fieldNames.mpr ⟨c, hc, hisInt, rfl⟩, List.mem_map.mpr ⟨v, ?_, ?_⟩⟩
    · obtain ⟨e, he, rfl⟩ := List.mem_map.mp hc
      rw [Regroup.mem_distinctSorted, List.mem_map]
      refine ⟨(v, e.2), List.mem_filterMap.mpr ⟨e, ?_, ?_⟩, rfl⟩
      · exact List.mem_filter.mpr ⟨he, beq_iff_eq.mpr rfl⟩
      · simp only [(hkind.read_iff e.1.term v).mpr hv, Option.map_some]
    · obtain ⟨e, he, rfl⟩ := List.mem_map.mp hc
      rw [← hv, ← heq e he]

/-- Every condition that is held adds once, and only what is listed last for the group. -/
theorem totalFor_groupTermAdditions (hs : shard.Ascending) (hx : g.get? d = some x)
    (heq : ∀ e ∈ entries, e.1.inequality = false) :
    totalFor d (groupTermAdditions shard g entries) =
      ∑ c ∈ (entries.map (·.1)).toFinset, worth shard entries d x c := by
  have hnodup : ∀ b : Bool, (Regroup.fieldNames b (entries.map (·.1))).Nodup :=
    fun b => (Regroup.pairwise_distinctSorted _).imp fun h => h.ne
  have hint := termKind_int.nodup_visitedConditions entries (hnodup true)
  have hstr := termKind_str.nodup_visitedConditions entries (hnodup false)
  rw [groupTermAdditions, totalFor_append,
    totalFor_tablesAdditions hx termKind_int hs.intPostings (fun _ _ => Iff.rfl) heq,
    totalFor_tablesAdditions hx termKind_str hs.stringPostings (fun _ _ => Iff.rfl) heq,
    ← List.sum_append, ← List.map_append, ← List.sum_toFinset]
  · refine Finset.sum_congr (Finset.ext fun c => ?_) fun _ _ => rfl
    rw [List.mem_toFinset, List.mem_toFinset, List.mem_append,
      termKind_int.mem_visitedConditions heq, termKind_str.mem_visitedConditions heq]
    cases c.term.isInt <;> simp
  · refine List.nodup_append'.mpr ⟨hint, hstr, fun c hc hc' => ?_⟩
    have hc := ((termKind_int.mem_visitedConditions heq).mp hc).2
    have hc' := ((termKind_str.mem_visitedConditions heq).mp hc').2
    rw [hc] at hc'
    cases hc'

/-- The delta that three lists give last for a group and a condition. -/
def lastDelta? (groups : List Nat) (conditions : List Condition) (deltas : List Int) (group : Nat)
    (c : Condition) : Option Int :=
  (((groups.zip (conditions.zip deltas)).filter fun e => e.1 = group ∧ e.2.1 = c).getLast?).map
    (·.2.2)

/-- Only what is listed for groups that exist is an entry. -/
theorem liveEntries_congr {n : Nat} {groups groups' : List Nat}
    {conditions conditions' : List Condition} {deltas deltas' : List Int}
    (h : (groups'.zip (conditions'.zip deltas')).filter (·.1 < n) =
      (groups.zip (conditions.zip deltas)).filter (·.1 < n)) :
    liveEntries n groups' conditions' deltas' = liveEntries n groups conditions deltas := by
  unfold liveEntries
  rw [List.filter_map, List.filter_map]
  exact congrArg (List.map _) h

/-- For a group that exists, dropping the entries of other groups makes no difference. -/
theorem lastFor?_liveEntries {n : Nat} (hx : x < n) (groups : List Nat)
    (conditions : List Condition) (deltas : List Int) (c : Condition) :
    lastFor? (liveEntries n groups conditions deltas) c x =
      lastDelta? groups conditions deltas x c := by
  unfold lastFor? lastOf? liveEntries lastDelta?
  simp only [List.filter_map, List.filter_filter, List.getLast?_map, Option.map_map]
  refine congrArg (fun es : List (Nat × Condition × Int) => es.getLast?.map (·.2.2))
    (List.filter_congr fun e _ => ?_)
  by_cases hgroup : e.1 = x
  · simp [hgroup, hx]
  · simp [hgroup]

/-- What three lists add to a document, told by the lists themselves. -/
theorem totalFor_liveEntries (hs : shard.Ascending) (hx : g.get? d = some x)
    (hlt : x < g.numGroups) {groups : List Nat} {conditions : List Condition} {deltas : List Int}
    (heq : ∀ c ∈ conditions, c.inequality = false) :
    totalFor d (groupTermAdditions shard g
      (liveEntries g.numGroups groups conditions deltas)) =
      ∑ c ∈ conditions.toFinset with c.HeldBy shard d,
        (lastDelta? groups conditions deltas x c).getD 0 := by
  have hmem : ∀ e ∈ liveEntries g.numGroups groups conditions deltas, e.1 ∈ conditions := by
    intro e he
    obtain ⟨f, hf, rfl⟩ := List.mem_map.mp (List.mem_filter.mp he).1
    exact (List.of_mem_zip (List.of_mem_zip hf).2).1
  rw [totalFor_groupTermAdditions hs hx fun e he => heq _ (hmem e he), Finset.sum_filter]
  simp only [← lastFor?_liveEntries hlt groups conditions deltas]
  refine Finset.sum_subset (fun c hc => ?_) fun c _ hnot => ?_
  · obtain ⟨e, he, rfl⟩ := List.mem_map.mp (List.mem_toFinset.mp hc)
    exact List.mem_toFinset.mpr (hmem e he)
  · -- nothing is listed for the condition, so nothing is listed last
    have hnone : (liveEntries g.numGroups groups conditions deltas).filter (·.1 = c) = [] := by
      refine List.filter_eq_nil_iff.mpr fun e he heq => hnot ?_
      rw [← of_decide_eq_true heq]
      exact List.mem_toFinset.mpr (List.mem_map_of_mem he)
    rw [worth, lastFor?, hnone]
    exact ite_self 0

end Groups

end Counters

end Cohort
