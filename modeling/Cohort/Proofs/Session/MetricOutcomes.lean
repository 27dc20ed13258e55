import Cohort.Proofs.Session.Conclusions
import Cohort.Proofs.Session.Guarantees
import Cohort.Proofs.Session.UpdateMeaning

/-!
# Outcomes of updates by term — what a metric grows by

An update by term adds to every document the deltas of all conditions whose term it holds, so it
may be cut into several calls in any order. Within groups it adds one delta per term, the last that
was listed for the group of the document. Nothing but the metric changes.
-/

namespace Cohort

namespace Session

variable {shard : Shard} {config : Config} {hand : Nat} {s s' : Session} {name : String}

theorem lookup_map_replace (metrics : List (String × Counters)) (name other : String)
    (c : Counters) :
    (metrics.map fun m => if m.1 = name then (name, c) else m).lookup other =
      if other = name then (metrics.lookup other).map fun _ => c else metrics.lookup other := by
  induction metrics with
  | nil => simp
  | cons m metrics ih =>
    obtain ⟨key, counters⟩ := m
    rw [List.map_cons]
    by_cases hkey : key = name
    · subst hkey
      by_cases hother : other = key
      · subst hother
        simp
      · simp [List.lookup_cons, hother, ih, beq_eq_false_iff_ne.mpr hother]
    · by_cases hother : other = key
      · subst hother
        simp [hkey]
      · simp [List.lookup_cons, hkey, ih, beq_eq_false_iff_ne.mpr hother]

/-- A metric was added to, and nothing else that a caller sees has changed. -/
structure Adds (name : String) (adds : List (Nat × Int)) (s s' : Session) : Prop where
  exists_counters : ∃ c c', s.metricNamed name = .ok c ∧ c.addAll? adds = some c' ∧
    s'.metricNamed name = .ok c'
  metricNamed_eq : ∀ other ≠ name, s'.metricNamed other = s.metricNamed other
  grouping_eq : s'.grouping = s.grouping
  stats_eq : s'.stats = s.stats

theorem adds_of_metrics {adds : List (Nat × Int)} {c c' : Counters}
    (hc : s.metricNamed name = .ok c) (hadds : c.addAll? adds = some c')
    (hmetrics : s'.metrics = s.metrics.map fun m => if m.1 = name then (name, c') else m)
    (hgrouping : s'.grouping = s.grouping) (hstats : s'.stats = s.stats) :
    Adds name adds s s' := by
  have hlookup : s.metrics.lookup name = some c := by
    unfold metricNamed at hc
    split at hc
    · rename_i hlookup
      rw [hlookup]
      exact congrArg some (Except.ok.inj hc)
    · cases hc
  refine ⟨⟨c, c', hc, hadds, ?_⟩, fun other hother => ?_, hgrouping, hstats⟩
  · unfold metricNamed
    rw [hmetrics, lookup_map_replace, if_pos rfl, hlookup]
    rfl
  · unfold metricNamed
    rw [hmetrics, lookup_map_replace, if_neg hother]

/-- The same additions lead to the same counters. -/
theorem Adds.unique {adds : List (Nat × Int)} {t : Session} (h : Adds name adds s s')
    (h' : Adds name adds s t) : t.metricNamed name = s'.metricNamed name := by
  obtain ⟨c, after, hc, hadds, hafter⟩ := h.exists_counters
  obtain ⟨c', after', hc', hadds', hafter'⟩ := h'.exists_counters
  obtain rfl : c = c' := Except.ok.inj (hc.symm.trans hc')
  obtain rfl : after = after' := Option.some.inj (hadds.symm.trans hadds')
  rw [hafter, hafter']

/-- Every counter grows by the total of its document. -/
theorem Adds.grows {adds : List (Nat × Int)} (h : Adds name adds s s')
    (hs : s.Sound shard config 1 hand) (hs' : s'.Sound shard config 1 hand) :
    ∃ before after, s.metricNamed name = .ok before ∧ s'.metricNamed name = .ok after ∧
      before.WellFormed shard.numDocs ∧ after.WellFormed shard.numDocs ∧
      ∀ d v, before[d]? = some v → after[d]? = some (wrap32 (v + Counters.totalFor d adds)) := by
  obtain ⟨before, after, hbefore, hadds, hafter⟩ := h.exists_counters
  have hwf := hs.metricNamed hbefore
  refine ⟨before, after, hbefore, hafter, hwf, hs'.metricNamed hafter, fun d v hv => ?_⟩
  rw [hwf.getElem?_addAll? hadds, hv, Option.map_some]

end Session

namespace Counters

theorem checkConditions_ok {conditions : List Condition} {n : Nat} :
    checkConditions conditions n = .ok () ↔
      conditions.length = n ∧ ∀ c ∈ conditions, c.inequality = false := by
  constructor
  · intro h
    obtain ⟨hlen, h⟩ := require_bind_ok h
    refine ⟨of_decide_eq_true hlen, fun c hc => ?_⟩
    cases hfind : conditions.find? (·.inequality) with
    | none => simpa using List.find?_eq_none.mp hfind c hc
    | some c =>
      rw [hfind] at h
      cases h
  · rintro ⟨hlen, hall⟩
    have hfind : conditions.find? (·.inequality) = none :=
      List.find?_eq_none.mpr fun c hc => by simp [hall c hc]
    unfold checkConditions
    rw [require, if_pos (decide_eq_true hlen), hfind]
    rfl

end Counters

namespace Call

open Session

variable {shard : Shard} {config : Config} {hand : Nat} {s s' : Session} {name : String}

/-- An update of a metric that there is. -/
theorem ends_updateMetric {f : Feed → Counters → Call Counters} {ok : Unit → Session → Prop}
    {err : Failure → Session → Prop} (hs : s.Sound shard config 1 hand)
    (hmissing : ∀ e, s.metricNamed name = .error e → err (.refused e) s)
    (hf : ∀ c, s.metricNamed name = .ok c →
      Ends (f ⟨shard, config.bufferSize⟩ c) { s with buffers := bufferPool config 0 }
        (fun c' t => ok () { t with
          metrics := t.metrics.map fun m => if m.1 = name then (name, c') else m
          buffers := bufferPool config 1 })
        (fun e t => err e { t with buffers := bufferPool config 1 })) :
    Ends (updateMetric name f) s ok err := by
  refine ends_bind (ends_get (ends_bind (ends_orRefused (fun c hc => ?_) hmissing)))
  refine ends_withBuffers hs (ends_bind ((hf c hc).mono (fun c' t ht => ?_) fun _ _ he => he))
  exact ends_modify ht

theorem ends_addByTerm (hs : s.Sound shard config 1 hand) (ha : shard.Ascending)
    (hchunk : 0 < config.bufferSize) (name : String) (conditions : List Condition)
    (deltas : List Int) :
    Ends (addByTerm name conditions deltas) s
      (fun _ s' => (∀ c ∈ conditions, c.inequality = false) ∧
        Adds name (Counters.termAdditions shard conditions deltas) s s')
      (OnFailure (fun e _ => s.metricNamed name = .error e ∨
        Counters.checkConditions conditions deltas.length = .error e) False) := by
  refine ends_updateMetric hs (fun e he => .inl he) fun c hc => ?_
  refine ends_bind (ends_orRefused (fun _ hcheck => ?_) fun e he => .inr he)
  obtain ⟨c', hc'⟩ := @Counters.exists_addByTerm? _ ⟨shard, config.bufferSize⟩ ha hchunk
    (hs.metricNamed hc).size_eq conditions deltas
  have hadds := hc'
  rw [Counters.addByTerm?_eq hchunk] at hadds
  rw [hc']
  exact ends_pure ⟨(Counters.checkConditions_ok.mp hcheck).2,
    adds_of_metrics hc hadds rfl rfl rfl⟩

/-- A pass has no part in the metrics. -/
theorem ends_onGrouping_metrics {α : Type} (x : Pass α) (s : Session) :
    Ends (onGrouping x) s (fun _ t => t.metrics = s.metrics) fun _ _ => True := by
  unfold Ends onGrouping
  cases x ⟨s.ledger, s.grouping⟩ with
  | ok a w => rfl
  | error e w => trivial

/-- The pass that an update by term within groups consists of leaves the groups alone. -/
theorem completes_addByGroupAndTerm? {feed : Feed} {g : Grouping} {c : Counters}
    (ha : feed.shard.Ascending) (hchunk : 0 < feed.chunk) (hg : g.WellFormed feed.numDocs)
    (hc : c.size = feed.numDocs) {entries : List (Condition × Counters.GroupDelta)}
    (hentries : ∀ e ∈ entries, e.2.group < g.numGroups) :
    (Pass.scratch (g.numGroups * 8) fun _ =>
        orBroken (c.addByGroupAndTerm? feed g entries)).Completes g
      (fun c' g' => c.addAll? (Counters.groupTermAdditions feed.shard g entries) = some c' ∧ g' = g)
      (fun _ _ => True) False := by
  refine Pass.completes_scratch (Pass.completes_orBroken (fun c' hc' => ⟨?_, rfl⟩) fun hnone => ?_)
    fun _ => trivial
  · exact (Counters.addByGroupAndTerm?_eq ha hchunk hg hentries c).symm.trans hc'
  · obtain ⟨c', hc'⟩ := Counters.exists_addByGroupAndTerm? ha hchunk hg hc hentries
    cases hc'.symm.trans hnone

theorem ends_addByGroupAndTerm (hs : s.Sound shard config 1 hand) (ha : shard.Ascending)
    (hchunk : 0 < config.bufferSize) (name : String) (groups : List Nat)
    (conditions : List Condition) (deltas : List Int) :
    Ends (addByGroupAndTerm name groups conditions deltas) s
      (fun _ s' => (∀ c ∈ conditions, c.inequality = false) ∧
        Adds name (Counters.groupTermAdditions shard s.grouping
          (Counters.liveEntries s.grouping.numGroups groups conditions deltas)) s s')
      (OnFailure (fun _ _ => True) False) := by
  refine ends_updateMetric hs (fun _ _ => trivial) fun c hc => ?_
  refine ends_bind (ends_orRefused (fun _ hcheck => ?_) fun _ _ => trivial)
  obtain ⟨-, hcheck⟩ := require_bind_ok hcheck
  refine ends_bind (ends_get ?_)
  have hpass := @completes_addByGroupAndTerm? ⟨shard, config.bufferSize⟩ s.grouping c ha hchunk
    hs.wellFormed (hs.metricNamed hc).size_eq _
    (@Counters.lt_of_mem_liveEntries _ groups conditions deltas)
  refine ((ends_onGrouping (hs.withFree 0) hpass).and (ends_onGrouping_metrics _ _)).mono ?_ ?_
  · rintro c' t ⟨⟨⟨hadds, hgrouping⟩, hstats⟩, hmetrics⟩
    refine ⟨(Counters.checkConditions_ok.mp hcheck).2,
      adds_of_metrics hc hadds ?_ hgrouping hstats⟩
    show t.metrics.map _ = s.metrics.map _
    rw [show t.metrics = s.metrics from hmetrics]
  · rintro (e | _) t ⟨he, -⟩
    · exact he
    · exact he

end Call

namespace Live

open Counters (gain lastDelta?)

variable {shard : Shard} {config : Config} {x : Live} {s' : Session} {name : String}
  {before : Counters}

/-! ### Updates by term -/

section Terms

variable {conditions : List Condition} {deltas : List Int}

theorem Reachable.addByTerm (h : Reachable shard config x)
    (hr : Session.addByTerm name conditions deltas x.session = .ok () s') :
    Reachable shard config ⟨s', x.hand⟩ := by
  refine .step h (.answered (r := .command (.conditionalUpdateDynamic name conditions deltas))
    (a := .outcome (.metric name)) ?_)
  show EStateM.map _ (EStateM.bind (Session.addByTerm name conditions deltas) _) _ = _
  simp only [EStateM.map, EStateM.bind, hr]
  rfl

/-- A single call. -/
theorem Reachable.addByTerm_grows (h : Reachable shard config x) (hb : shard.Built)
    (hm : x.session.metricNamed name = .ok before) (hlen : conditions.length = deltas.length)
    (heq : ∀ c ∈ conditions, c.inequality = false) :
    ∃ s' after, Session.addByTerm name conditions deltas x.session = .ok () s' ∧
      Session.Adds name (Counters.termAdditions shard conditions deltas) x.session s' ∧
      s'.metricNamed name = .ok after ∧ after.WellFormed shard.numDocs ∧
      ∀ d v, before[d]? = some v →
        after[d]? = some (wrap32 (v + gain shard d (conditions.zip deltas))) := by
  have hends := Call.ends_addByTerm h.sound hb.ascending h.bufferSize_pos name conditions deltas
  have hcheck := Counters.checkConditions_ok.mpr ⟨hlen, heq⟩
  cases hr : Session.addByTerm name conditions deltas x.session with
  | error e t =>
    cases e with
    | broken => exact absurd (hends.err_of hr) id
    | refused e =>
      rcases hends.err_of hr with he | he
      · cases hm.symm.trans he
      · cases hcheck.symm.trans he
  | ok u s' =>
    obtain ⟨-, hadds⟩ := hends.ok_of hr
    obtain ⟨c, after, hc, hafter, -, hwf, hgrows⟩ := hadds.grows h.sound (h.addByTerm hr).sound
    obtain rfl : before = c := Except.ok.inj (hm.symm.trans hc)
    refine ⟨s', after, rfl, hadds, hafter, hwf, fun d v hv => ?_⟩
    rw [hgrows d v hv, Counters.totalFor_termAdditions hb.ascending]

/-- Several calls, one after the other. -/
theorem Reachable.addByTerm_batches (h : Reachable shard config x) (hb : shard.Built)
    (hm : x.session.metricNamed name = .ok before) (batches : List (List Condition × List Int))
    (hbatches : ∀ b ∈ batches, b.1.length = b.2.length ∧ ∀ c ∈ b.1, c.inequality = false) :
    ∃ t after, (batches.forM fun b => Session.addByTerm name b.1 b.2) x.session = .ok () t ∧
      t.metricNamed name = .ok after ∧ after.WellFormed shard.numDocs ∧
      ∀ d v, before[d]? = some v →
        after[d]? = some (wrap32 (v + gain shard d (batches.flatMap fun b => b.1.zip b.2))) := by
  induction batches generalizing x before with
  | nil =>
    have hwf := h.sound.metricNamed hm
    refine ⟨x.session, before, rfl, hm, hwf, fun d v hv => ?_⟩
    have hgain : gain shard d [] = 0 := rfl
    rw [List.flatMap_nil, hgain, Int.add_zero, hwf.wrapped d v hv, hv]
  | cons b batches ih =>
    obtain ⟨⟨hlen, heq⟩, hrest⟩ := List.forall_mem_cons.mp hbatches
    obtain ⟨s', between, hr, -, hm', -, hgrows⟩ := h.addByTerm_grows hb hm hlen heq
    obtain ⟨t, after, hr', hafter, hwf, hgrows'⟩ := ih (h.addByTerm hr) hm' hrest
    refine ⟨t, after, ?_, hafter, hwf, fun d v hv => ?_⟩
    · show EStateM.bind (Session.addByTerm name b.1 b.2) _ x.session = _
      unfold EStateM.bind
      rw [hr]
      exact hr'
    · rw [hgrows' d _ (hgrows d v hv), List.flatMap_cons, Counters.gain_append, ← Int.add_assoc]
      exact congrArg some Int.bmod_add_bmod

/-- An update by term of a metric goes through if it gives one delta for each condition and all of
them are equalities. Every document gets the deltas of all conditions whose term it holds, whatever
its group, and nothing else changes. So it makes no difference in which order conditions and deltas
are listed, or over how many calls they are spread. -/
theorem Reachable.update_meaning (h : Reachable shard config x) (hb : shard.Built)
    (hm : x.session.metricNamed name = .ok before) (hlen : conditions.length = deltas.length)
    (heq : ∀ c ∈ conditions, c.inequality = false) :
    ∃ s' after, Session.addByTerm name conditions deltas x.session = .ok () s' ∧
      s'.metricNamed name = .ok after ∧
      (∀ d < shard.numDocs, ∃ v, before[d]? = some v ∧
        after[d]? = some (wrap32 (v + gain shard d (conditions.zip deltas)))) ∧
      (∀ other ≠ name, s'.metricNamed other = x.session.metricNamed other) ∧
      s'.grouping = x.session.grouping ∧ s'.stats = x.session.stats ∧
      ∀ batches : List (List Condition × List Int),
        (∀ b ∈ batches, b.1.length = b.2.length) →
        (batches.flatMap fun b => b.1.zip b.2).Perm (conditions.zip deltas) →
        ∃ t, (batches.forM fun b => Session.addByTerm name b.1 b.2) x.session = .ok () t ∧
          t.metricNamed name = .ok after := by
  obtain ⟨s', after, hr, hadds, hafter, hwf, hgrows⟩ := h.addByTerm_grows hb hm hlen heq
  have hbefore := h.sound.metricNamed hm
  have hvalue : ∀ d < shard.numDocs, ∃ v, before[d]? = some v :=
    fun d hd => ⟨_, Array.getElem?_eq_getElem (hbefore.size_eq.symm ▸ hd)⟩
  refine ⟨s', after, hr, hafter, fun d hd => ?_, hadds.metricNamed_eq, hadds.grouping_eq,
    hadds.stats_eq, fun batches hlens hperm => ?_⟩
  · obtain ⟨v, hv⟩ := hvalue d hd
    exact ⟨v, hv, hgrows d v hv⟩
  · have hconditions : ∀ b ∈ batches, ∀ c ∈ b.1, c.inequality = false := by
      intro b hb c hc
      rw [← List.map_fst_zip (Nat.le_of_eq (hlens b hb))] at hc
      obtain ⟨e, he, rfl⟩ := List.mem_map.mp hc
      have he := hperm.mem_iff.mp (List.mem_flatMap.mpr ⟨b, hb, he⟩)
      exact heq _ (List.of_mem_zip he).1
    obtain ⟨t, after', hr', hafter', hwf', hgrows'⟩ := h.addByTerm_batches hb hm batches
      fun b hb => ⟨hlens b hb, hconditions b hb⟩
    have hsame : after' = after := by
      refine Array.ext_getElem? fun d => ?_
      by_cases hd : d < shard.numDocs
      · obtain ⟨v, hv⟩ := hvalue d hd
        rw [hgrows d v hv, hgrows' d v hv, Counters.gain_perm hperm]
      · rw [Array.getElem?_eq_none (hwf'.size_eq ▸ Nat.le_of_not_lt hd),
          Array.getElem?_eq_none (hwf.size_eq ▸ Nat.le_of_not_lt hd)]
    exact ⟨t, hr', hsame ▸ hafter'⟩

/-- The session `divided` with a metric. -/
def tallied : Session :=
  { divided with
    ledger := ⟨⟨1000, 47, 150⟩, none⟩
    metrics := [("hits", #[0, 0, 0])] }

/-- The condition that somebody is of an age. -/
def ofAge (age : Int) : Condition := ⟨"age", .int age, false⟩

theorem reachable_tallied : Reachable ages narrow ⟨tallied, 0⟩ := by
  refine .step reachable_divided (.answered (r := .command (.createDynamic "hits"))
    (a := .outcome (.metric "hits")) ?_)
  cbv

/-- The two documents of age 20 get two of the deltas, which wrap around. -/
theorem Reachable.update_meaning_tallied : ∃ s' after t,
    Session.addByTerm "hits" [ofAge 20, ofAge 99, ofAge 20] [2147483647, 5, 3] tallied =
      .ok () s' ∧
    s'.metricNamed "hits" = .ok after ∧ after[0]? = some 0 ∧ after[1]? = some (-2147483646) ∧
    ([([ofAge 20], [3]), ([ofAge 99, ofAge 20], [5, 2147483647])].forM fun b =>
      Session.addByTerm "hits" b.1 b.2) tallied = .ok () t ∧ t.metricNamed "hits" = .ok after := by
  obtain ⟨s', after, hr, hafter, hvalues, -, -, -, hbatches⟩ :=
    Reachable.update_meaning reachable_tallied built_ages
      (show tallied.metricNamed "hits" = .ok #[0, 0, 0] from rfl)
      (show [ofAge 20, ofAge 99, ofAge 20].length = ([2147483647, 5, 3] : List Int).length from rfl)
      (by decide)
  obtain ⟨_, hvalue, hfirst⟩ := hvalues 0 (by decide)
  cases hvalue
  obtain ⟨_, hvalue, hsecond⟩ := hvalues 1 (by decide)
  cases hvalue
  obtain ⟨t, hr', ht⟩ := hbatches
    [([ofAge 20], [3]), ([ofAge 99, ofAge 20], [5, 2147483647])] (by decide) (by decide)
  exact ⟨s', after, t, hr, hafter, hfirst.trans (by decide), hsecond.trans (by decide), hr', ht⟩

end Terms

/-! ### Updates by term within a group -/

section Groups

variable {groups : List Nat} {conditions : List Condition} {deltas : List Int}

theorem Reachable.addByGroupAndTerm (h : Reachable shard config x)
    (hr : Session.addByGroupAndTerm name groups conditions deltas x.session = .ok () s') :
    Reachable shard config ⟨s', x.hand⟩ := by
  refine .step h (.answered
    (r := .command (.groupConditionalUpdateDynamic name groups conditions deltas))
    (a := .outcome (.metric name)) ?_)
  show EStateM.map _
    (EStateM.bind (Session.addByGroupAndTerm name groups conditions deltas) _) _ = _
  simp only [EStateM.map, EStateM.bind, hr]
  rfl

/-- What an update that went through has added. -/
theorem Reachable.adds_addByGroupAndTerm (h : Reachable shard config x) (hb : shard.Built)
    (hr : Session.addByGroupAndTerm name groups conditions deltas x.session = .ok () s') :
    (∀ c ∈ conditions, c.inequality = false) ∧
      Session.Adds name (Counters.groupTermAdditions shard x.session.grouping
        (Counters.liveEntries x.session.grouping.numGroups groups conditions deltas))
        x.session s' :=
  (Call.ends_addByGroupAndTerm h.sound hb.ascending h.bufferSize_pos name groups conditions
    deltas).ok_of hr

/-- An update by term within groups that goes through adds to every document, once for every
condition whose term it holds, the last delta that is listed for the condition and the group of the
document. Documents for which nothing is listed keep their value, entries of groups that do not
exist make no difference, and nothing else changes. -/
theorem Reachable.group_update_meaning (h : Reachable shard config x) (hb : shard.Built)
    (hr : Session.addByGroupAndTerm name groups conditions deltas x.session = .ok () s') :
    ∃ before after, x.session.metricNamed name = .ok before ∧ s'.metricNamed name = .ok after ∧
      (∀ d < shard.numDocs, ∃ group v, x.session.grouping.get? d = some group ∧
        before[d]? = some v ∧ after[d]? = some (wrap32 (v +
          ∑ c ∈ conditions.toFinset with c.HeldBy shard d,
            (lastDelta? groups conditions deltas group c).getD 0))) ∧
      (∀ d group, x.session.grouping.get? d = some group →
        (∀ c ∈ conditions, c.HeldBy shard d → lastDelta? groups conditions deltas group c = none) →
        after[d]? = before[d]?) ∧
      (∀ groups' conditions' deltas' t,
        (groups'.zip (conditions'.zip deltas')).filter (·.1 < x.session.numGroups) =
          (groups.zip (conditions.zip deltas)).filter (·.1 < x.session.numGroups) →
        Session.addByGroupAndTerm name groups' conditions' deltas' x.session = .ok () t →
        t.metricNamed name = .ok after) ∧
      (∀ other ≠ name, s'.metricNamed other = x.session.metricNamed other) ∧
      s'.grouping = x.session.grouping ∧ s'.stats = x.session.stats := by
  obtain ⟨heq, hadds⟩ := h.adds_addByGroupAndTerm hb hr
  obtain ⟨before, after, hbefore, hafter, hwf, -, hgrows⟩ :=
    hadds.grows h.sound (h.addByGroupAndTerm hr).sound
  have hg := h.sound.wellFormed
  -- the total of a document, told by its group
  have htotal : ∀ d group, x.session.grouping.get? d = some group →
      ∃ v, before[d]? = some v ∧ after[d]? = some (wrap32 (v +
        ∑ c ∈ conditions.toFinset with c.HeldBy shard d,
          (lastDelta? groups conditions deltas group c).getD 0)) := by
    intro d group hgroup
    have hd : d < before.size := by
      rw [hwf.size_eq, ← hg.len_eq]
      exact Grouping.lt_len_of_get? hgroup
    refine ⟨before[d], Array.getElem?_eq_getElem hd, ?_⟩
    rw [hgrows d _ (Array.getElem?_eq_getElem hd), Counters.totalFor_liveEntries hb.ascending
      hgroup (hg.lt_numGroups d group hgroup) heq]
  refine ⟨before, after, hbefore, hafter, fun d hd => ?_, fun d group hgroup hnone => ?_,
    fun groups' conditions' deltas' t hsame hr' => ?_, hadds.metricNamed_eq, hadds.grouping_eq,
    hadds.stats_eq⟩
  · obtain ⟨group, hgroup⟩ := Grouping.get?_of_lt_len (hg.len_eq.symm ▸ hd)
    obtain ⟨v, hv⟩ := htotal d group hgroup
    exact ⟨group, v, hgroup, hv⟩
  · obtain ⟨v, hv, hv'⟩ := htotal d group hgroup
    have hzero : ∑ c ∈ conditions.toFinset with c.HeldBy shard d,
        (lastDelta? groups conditions deltas group c).getD 0 = 0 := by
      refine Finset.sum_eq_zero fun c hc => ?_
      obtain ⟨hc, hheld⟩ := Finset.mem_filter.mp hc
      rw [hnone c (List.mem_toFinset.mp hc) hheld]
      rfl
    rw [hv', hv, hzero, Int.add_zero, hwf.wrapped d v hv]
  · obtain ⟨-, hadds'⟩ := h.adds_addByGroupAndTerm hb hr'
    have hlive : Counters.liveEntries x.session.grouping.numGroups groups' conditions' deltas' =
        Counters.liveEntries x.session.grouping.numGroups groups conditions deltas :=
      Counters.liveEntries_congr hsame
    rw [hlive] at hadds'
    exact (hadds.unique hadds').trans hafter

/-- Of the two deltas for age 20 in group 2 the second one counts, and there is no group 7. -/
theorem Reachable.group_update_meaning_tallied : ∃ s' after,
    Session.addByGroupAndTerm "hits" [2, 0, 2, 7] [ofAge 20, ofAge 10, ofAge 20, ofAge 20]
      [5, 1, 7, 100] tallied = .ok () s' ∧
    s'.metricNamed "hits" = .ok after ∧ after[0]? = some 1 ∧ after[1]? = some 7 := by
  obtain ⟨_, s', hr⟩ : ∃ u s', Session.addByGroupAndTerm "hits" [2, 0, 2, 7]
      [ofAge 20, ofAge 10, ofAge 20, ofAge 20] [5, 1, 7, 100] tallied = .ok u s' :=
    ⟨_, _, by cbv⟩
  obtain ⟨before, after, hbefore, hafter, hvalues, -⟩ :=
    Reachable.group_update_meaning reachable_tallied built_ages hr
  cases hbefore
  obtain ⟨_, _, hgroup, hvalue, hfirst⟩ := hvalues 0 (by decide)
  cases hgroup
  cases hvalue
  obtain ⟨_, _, hgroup, hvalue, hsecond⟩ := hvalues 1 (by decide)
  cases hgroup
  cases hvalue
  exact ⟨s', after, hr, hafter, hfirst.trans (by decide), hsecond.trans (by decide)⟩

end Groups

end Live

end Cohort
