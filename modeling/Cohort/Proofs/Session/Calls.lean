import Cohort.Proofs.Regroup.Deal
import Cohort.Proofs.Regroup.MultiRules
import Cohort.Proofs.Regroup.Remap
import Cohort.Proofs.Regroup.RuleMeaning
import Cohort.Proofs.Regroup.Split
import Cohort.Proofs.Regroup.Values
import Cohort.Proofs.Session.Sound
import Cohort.Script

/-!
# Calls — every call on a session serves it

One theorem per call. A regroup ends in as many groups as it reports; the calls on stats and
metrics do not touch the grouping.
-/

namespace Cohort

/-- Regroups move documents, and a reset does; no other command moves any. -/
def Command.isRegroup : Command → Bool
  | .pushStat _ | .popStat | .groupStats _ | .createDynamic _ | .updateDynamic _ _
  | .conditionalUpdateDynamic _ _ _ | .groupConditionalUpdateDynamic _ _ _ _
  | .totalDocFreq _ _ | .reset => false
  | _ => true

/-! ### The stat stack -/

namespace StatStack

variable {s : StatStack}

theorem bytes_eq_sum (s : StatStack) : s.bytes = (s.stats.toList.map (·.values.bytes)).sum := by
  unfold bytes List.sum
  rw [List.foldr_map]

theorem bytes_push (x : Stat) :
    ({ s with stats := s.stats.push x } : StatStack).bytes = s.bytes + x.values.bytes := by
  rw [bytes_eq_sum, bytes_eq_sum]
  simp only [Array.toList_push, List.map_append, List.sum_append, List.map_cons, List.map_nil,
    List.sum_singleton]

theorem bytes_pop {x : Stat} (h : s.stats.back? = some x) :
    ({ s with stats := s.stats.pop } : StatStack).bytes + x.values.bytes = s.bytes := by
  obtain ⟨ys, hys⟩ := Array.back?_eq_some_iff.mp h
  have hs : s = { s with stats := ({ s with stats := ys } : StatStack).stats.push x } := by
    rw [← hys]
  rw [hs, bytes_push]
  simp only [Array.pop_push]

end StatStack

/-! ### Stats and metrics -/

namespace Session

open Call

variable {shard : Shard} {config : Config} {hand : Nat} {s : Session}

theorem serves_pushValues (hs : s.Sound shard config 1 hand) (name : String)
    (values : ValueTable) :
    Serves shard config 1 hand s (pushValues name values) s fun _ _ => True := by
  refine ends_bind (ends_get (ends_bind (ends_onLedger ?_)))
  refine ends_bind (ends_orRefused (fun _ _ => ?_) fun _ _ => ⟨hs, Kept.refl s⟩)
  refine ends_bind (Memory.ends_claim hs.coherent (fun l hl hused _ => ?_) ⟨hs, Kept.refl s⟩)
  refine ends_pure (ends_bind (ends_modify (ends_pure ⟨?_, trivial⟩)))
  refine ⟨hs.shard_eq, hs.config_eq, hs.buffers_eq, hl, ?_, hs.wellFormed, hs.counters⟩
  have h := hs.used_eq
  unfold heldBytes at h ⊢
  simp only [StatStack.bytes_push]
  omega

theorem serves_popStat (hs : s.Sound shard config 1 hand) :
    Serves shard config 1 hand s popStat s fun _ _ => True := by
  refine ends_bind (ends_get (ends_bind (ends_onLedger ?_)))
  unfold StatStack.pop
  cases hback : s.stats.stats.back? with
  | none => exact ends_throw ⟨hs, Kept.refl s⟩
  | some stat =>
    have hbytes := StatStack.bytes_pop hback
    have h := hs.used_eq
    unfold heldBytes at h
    refine ends_bind (Memory.ends_release hs.coherent (by omega) fun l hl hused _ => ?_)
    refine ends_pure (ends_bind (ends_modify (ends_pure ⟨?_, trivial⟩)))
    refine ⟨hs.shard_eq, hs.config_eq, hs.buffers_eq, hl, ?_, hs.wellFormed, hs.counters⟩
    unfold heldBytes
    simp only
    omega

theorem serves_pushStat (hs : s.Sound shard config 1 hand) (name : String) :
    Serves shard config 1 hand s (pushStat name) s fun _ _ => True :=
  serves_get (serves_orRefused_bind hs (Kept.refl s) fun values _ =>
    serves_pushValues hs name values)

theorem serves_stat_bind {α : Type} {f : ValueTable → Call α} {ok : α → Grouping → Prop}
    {index : Nat} (hs : s.Sound shard config 1 hand)
    (h : ∀ values, Serves shard config 1 hand s (f values) s ok) :
    Serves shard config 1 hand s (stat index >>= f) s ok :=
  ends_bind (ends_bind (ends_get (ends_orRefused (fun values _ => h values)
    fun _ _ => ⟨hs, Kept.refl s⟩)))

theorem serves_groupStats (hs : s.Sound shard config 1 hand) (index : Nat) :
    Serves shard config 1 hand s (groupStats index) s fun _ _ => True :=
  serves_stat_bind hs fun _ => serves_withBuffers hs (serves_get
    (serves_orBroken (hs.withFree 0) fun _ _ => trivial))

theorem serves_createMetric (hs : s.Sound shard config 1 hand) (name : String) :
    Serves shard config 1 hand s (createMetric name) s fun _ _ => True := by
  have hdocs : s.numDocs = shard.numDocs := hs.wellFormed.len_eq
  refine serves_get (serves_orRefused_bind hs (Kept.refl s) fun _ _ => ?_)
  refine ends_bind (ends_onLedger (Memory.ends_claim hs.coherent (fun l hl hused _ => ?_)
    ⟨hs, Kept.refl s⟩))
  have hcounters : ∀ m ∈ s.metrics ++ [(name, Counters.zero s.numDocs)],
      m.2.WellFormed shard.numDocs := by
    intro m hm
    rcases List.mem_append.mp hm with hm | hm
    · exact hs.counters m hm
    · obtain rfl := List.mem_singleton.mp hm
      exact hdocs ▸ Counters.wellFormed_zero s.numDocs
  have hsize := fun m hm => (hcounters m hm).size_eq
  refine ends_modify ⟨⟨hs.shard_eq, hs.config_eq, hs.buffers_eq, hl, ?_, hs.wellFormed, hcounters⟩,
    trivial⟩
  have h := hs.used_eq
  unfold heldBytes at h
  show l.used = s.buffers.reserved + s.grouping.bytes + s.stats.bytes +
    (s.metrics ++ [(name, Counters.zero s.numDocs)]).foldr (·.2.bytes + ·) 0 + hand
  rw [metricBytes_eq hs.size_eq] at h
  rw [metricBytes_eq hsize, List.length_append, List.length_singleton, Nat.succ_mul]
  rw [hdocs] at hused
  omega

/-- Counters that replace others of the same size are as many bytes. -/
theorem Sound.setMetric {free : Nat} (hs : s.Sound shard config free hand) {name : String}
    {c : Counters} (hc : c.WellFormed shard.numDocs) :
    ({ s with metrics := s.metrics.map fun m => if m.1 = name then (name, c) else m } :
      Session).Sound shard config free hand := by
  have hcounters : ∀ m ∈ s.metrics.map fun m => if m.1 = name then (name, c) else m,
      m.2.WellFormed shard.numDocs := by
    intro m hm
    obtain ⟨m, hmem, rfl⟩ := List.mem_map.mp hm
    split_ifs
    · exact hc
    · exact hs.counters m hmem
  refine ⟨hs.shard_eq, hs.config_eq, hs.buffers_eq, hs.coherent, ?_, hs.wellFormed, hcounters⟩
  have h := hs.used_eq
  unfold heldBytes at h ⊢
  rw [metricBytes_eq hs.size_eq] at h
  simp only [metricBytes_eq fun m hm => (hcounters m hm).size_eq, List.length_map]
  exact h

theorem Sound.metricNamed {free : Nat} (hs : s.Sound shard config free hand) {name : String}
    {c : Counters} (h : s.metricNamed name = .ok c) : c.WellFormed shard.numDocs := by
  unfold Session.metricNamed at h
  split at h
  · rename_i c' hlookup
    cases h
    exact hs.counters (name, c) (mem_of_lookup hlookup)
  · cases h

/-- An update that keeps the counters well-formed. -/
theorem serves_updateMetric (hs : s.Sound shard config 1 hand) (name : String)
    {f : Feed → Counters → Call Counters}
    (hf : ∀ (t : Session) (c : Counters), t.Sound shard config 0 hand → s.Kept t →
      c.WellFormed shard.numDocs → Serves shard config 0 hand s (f ⟨shard, config.bufferSize⟩ c) t
        fun c' _ => c'.WellFormed shard.numDocs) :
    Serves shard config 1 hand s (updateMetric name f) s fun _ _ => True := by
  refine serves_get (serves_orRefused_bind hs (Kept.refl s) fun c hc => ?_)
  refine serves_withBuffers hs (ends_bind ?_)
  have hlent : s.Kept { s with buffers := bufferPool config 0 } := ⟨fun _ => rfl, rfl, rfl, rfl⟩
  refine (hf _ c (hs.withFree 0) hlent (hs.metricNamed hc)).mono ?_ (fun _ _ he => he)
  rintro c' t ⟨ht, hc'⟩
  exact ends_modify ⟨ht.setMetric hc', trivial⟩

theorem serves_addByGroup (hs : s.Sound shard config 1 hand) (name : String)
    (deltas : List Int) :
    Serves shard config 1 hand s (addByGroup name deltas) s fun _ _ => True := by
  refine serves_updateMetric hs name fun t c ht _ hc => serves_get ?_
  exact serves_orBroken ht fun c' hc' => hc.addByGroup? hc'

theorem serves_addByTerm (hs : s.Sound shard config 1 hand) (name : String)
    (conditions : List Condition) (deltas : List Int) :
    Serves shard config 1 hand s (addByTerm name conditions deltas) s fun _ _ => True := by
  refine serves_updateMetric hs name fun t c ht hk hc => ?_
  refine serves_orRefused_bind ht hk fun _ _ => ?_
  exact serves_orBroken ht fun c' hc' => hc.addByTerm? hc'

theorem serves_addByGroupAndTerm (hs : s.Sound shard config 1 hand) (name : String)
    (groups : List Nat) (conditions : List Condition) (deltas : List Int) :
    Serves shard config 1 hand s (addByGroupAndTerm name groups conditions deltas) s
      fun _ _ => True := by
  refine serves_updateMetric hs name fun t c ht hk hc => ?_
  refine serves_orRefused_bind ht hk fun _ _ => serves_get (serves_onGrouping ht hk ?_)
  refine Pass.ensures_scratch (Pass.ensures_orBroken fun c' hc' => ?_)
    fun _ => ht.wellFormed.unmoved
  exact ⟨ht.wellFormed, hc.addByGroupAndTerm? hc'⟩

/-! ### Regroups -/

theorem serves_regroupMulti (hs : s.Sound shard config 1 hand) (rules : List MultiRule)
    (errorOnCollisions : Bool) :
    Serves shard config 1 hand s (regroupMulti rules errorOnCollisions) s
      (Regroup.Applied ⟨shard, config.bufferSize⟩ rules s.grouping) :=
  serves_regroup hs fun _ _ =>
    (Regroup.ensures_byMultiRules hs.wellFormed rules errorOnCollisions).mono
      fun _ _ h => ⟨h.wellFormed, h⟩

theorem serves_regroupRules (hs : s.Sound shard config 1 hand) (rules : List Rule) :
    Serves shard config 1 hand s (regroupRules rules) s
      (Regroup.Applied ⟨shard, config.bufferSize⟩ (rules.map Rule.toMulti) s.grouping) :=
  serves_regroup hs fun _ _ => (Regroup.ensures_byRules hs.wellFormed rules).mono
    fun _ _ h => ⟨h.wellFormed, h⟩

/-- Buckets of a stat send every document where its own value belongs. -/
theorem serves_metric (hs : s.Sound shard config 1 hand) (stat : Nat) (min max width : Int)
    (noGutters : Bool) :
    Serves shard config 1 hand s (metric stat min max width noGutters) s fun n g' =>
      ∃ values buckets, s.stats.get stat = .ok values ∧
        IntervalBuckets.make min max width noGutters = .ok buckets ∧
        (1 < s.numGroups → (s.numGroups - 1) * buckets.total ≤ maxId) ∧
        Pass.Sent shard.numDocs (Regroup.bucketOf? buckets values) s.grouping n g' := by
  have hg := hs.wellFormed
  refine serves_regroup hs fun t ht => ?_
  rw [ht]
  refine Pass.ensures_bind (Pass.ensures_orRefused (fun values hv => ?_) fun _ => hg.unmoved)
  refine Pass.ensures_bind (Pass.ensures_orRefused (fun buckets hb => ?_) fun _ => hg.unmoved)
  exact (Regroup.ensures_byBuckets hg values (IntervalBuckets.proper_of_make hb)).mono
    fun _ _ h => ⟨h.2.wellFormed, values, buckets, hv, hb, h⟩

/-- A grid of two stats sends every document to the cell of its own values. -/
theorem serves_metric2d (hs : s.Sound shard config 1 hand) (a b : AxisRange) :
    Serves shard config 1 hand s (metric2d a b) s fun n g' =>
      ∃ xs ys x y, s.stats.get a.stat = .ok xs ∧ s.stats.get b.stat = .ok ys ∧
        Axis.make "x" a.min a.max a.width = .ok x ∧ Axis.make "y" b.min b.max b.width = .ok y ∧
        (1 < s.numGroups → (Grid.mk x y).total ≤ maxId) ∧
        Pass.Sent shard.numDocs (Regroup.cellOf? ⟨x, y⟩ xs ys) s.grouping n g' := by
  have hg := hs.wellFormed
  refine serves_regroup hs fun t ht => ?_
  rw [ht]
  refine Pass.ensures_bind (Pass.ensures_orRefused (fun xs hxs => ?_) fun _ => hg.unmoved)
  refine Pass.ensures_bind (Pass.ensures_orRefused (fun ys hys => ?_) fun _ => hg.unmoved)
  refine Pass.ensures_bind (Pass.ensures_orRefused (fun x hx => ?_) fun _ => hg.unmoved)
  refine Pass.ensures_bind (Pass.ensures_orRefused (fun y hy => ?_) fun _ => hg.unmoved)
  exact (Regroup.ensures_byGrid hg xs ys (show (Grid.mk x y).x.Proper from Axis.proper_of_make hx)
    (Axis.proper_of_make hy)).mono
    fun _ _ h => ⟨h.2.wellFormed, xs, ys, x, y, hxs, hys, hx, hy, h⟩

/-- A range of a stat keeps every document by its own value. -/
theorem serves_metricFilter (hs : s.Sound shard config 1 hand) (stat : Nat) (min max : Int)
    (negate : Bool) :
    Serves shard config 1 hand s (metricFilter stat min max negate) s fun n g' =>
      ∃ values, s.stats.get stat = .ok values ∧
        Pass.Sent shard.numDocs (Regroup.keptBy? values min max negate) s.grouping n g' := by
  have hg := hs.wellFormed
  refine serves_regroup hs fun t ht => ?_
  rw [ht]
  refine Pass.ensures_bind (Pass.ensures_orRefused (fun values hv => ?_) fun _ => hg.unmoved)
  exact Pass.Ensures.mono (Regroup.sends_byRange hg values min max negate)
    fun _ _ h => ⟨h.wellFormed, values, hv, h⟩

/-- The grouping has the number of groups that was reported, if one was. -/
def Reports (o : Outcome) (g : Grouping) : Prop := ∀ n, o = .groups n → g.numGroups = n

theorem serves_groups {body : Session → Feed → Pass Nat} (hs : s.Sound shard config 1 hand)
    (h : ∀ t : Session, Pass.Regroups shard.numDocs (body t ⟨shard, config.bufferSize⟩)
      s.grouping) :
    Serves shard config 1 hand s (Outcome.groups <$> regroup body) s Reports := by
  refine serves_map ((serves_regroup hs fun t _ => h t).mono ?_ (fun _ _ he => he))
  rintro n s' ⟨hs', hn⟩
  refine ⟨hs', fun m hm => ?_⟩
  cases hm
  exact hn

/-- A call that reports no number of groups. -/
theorem serves_other {α : Type} {x : Call α} {f : α → Outcome} (hf : ∀ a n, f a ≠ .groups n)
    (h : Serves shard config 1 hand s x s fun _ _ => True) :
    Serves shard config 1 hand s (f <$> x) s Reports := by
  refine serves_map (h.mono ?_ (fun _ _ he => he))
  rintro a s' ⟨hs', -⟩
  exact ⟨hs', fun n hn => absurd hn (hf a n)⟩

/-- A command that regroups runs a pass, which may use the stats of the session. -/
theorem exists_regroup (hs : s.Sound shard config 1 hand) {c : Command}
    (hc : c.isRegroup = true) :
    ∃ body : Session → Feed → Pass Nat, c.apply = Outcome.groups <$> regroup body ∧
      ∀ t : Session,
        Pass.Regroups shard.numDocs (body t ⟨shard, config.bufferSize⟩) s.grouping := by
  have hg := hs.wellFormed
  -- both deals by a stat are this pass; the one of two ways is a case of the other
  have hdeal : ∀ (stat : Nat) (salt : String) (deal : Regroup.Deal),
      ∃ body : Session → Feed → Pass Nat,
        Outcome.groups <$> randomMetricMulti stat salt deal = Outcome.groups <$> regroup body ∧
        ∀ t : Session,
          Pass.Regroups shard.numDocs (body t ⟨shard, config.bufferSize⟩) s.grouping := by
    intro stat salt deal
    refine ⟨fun s feed => orRefused (s.stats.get stat) >>= fun values =>
      Regroup.dealByValues feed (.xxh3 salt) values deal, rfl, fun t => ?_⟩
    exact Pass.regroups_orRefused_bind hg fun values _ =>
      Regroup.regroups_dealByValues hg rfl values
  cases c with
  | regroupMulti rules errorOnCollisions =>
    exact ⟨_, rfl, fun _ => Regroup.regroups_byMultiRules hg rules errorOnCollisions⟩
  | regroupRules rules => exact ⟨_, rfl, fun _ => Regroup.regroups_byRules hg rules⟩
  | intOr field terms split =>
    exact ⟨_, rfl, fun _ => Regroup.regroups_splitByAny hg _ terms split⟩
  | stringOr field terms split =>
    exact ⟨_, rfl, fun _ => Regroup.regroups_splitByAny hg _ terms split⟩
  | regex field pattern split =>
    refine ⟨_, rfl, fun _ => Pass.ensures_bind (Pass.ensures_grouping ?_)⟩
    by_cases hn : 2 < s.grouping.numGroups
    · rw [if_pos hn]
      exact Pass.ensures_bind (Pass.ensures_refusal hg.unmoved)
    · rw [if_neg hn]
      refine Pass.regroups_unlessFilteredOut hg fun _ => ?_
      cases Regex.Engine.standard.enclosed? pattern with
      | none => exact Pass.ensures_refusal hg.unmoved
      | some re => exact Regroup.regroups_splitByPostings hg _ split
  | query rule => exact ⟨_, rfl, fun _ => Regroup.regroups_splitByQuery hg rule⟩
  | random field isInt salt p split =>
    exact ⟨_, rfl, fun _ => Regroup.regroups_dealByPostings hg _
      (Regroup.Deal.negative_mem_twoWay split p)⟩
  | randomMulti field isInt salt deal =>
    refine ⟨_, rfl, fun _ => Regroup.regroups_dealByPostings hg _ fun x hx => ?_⟩
    cases hx
  | randomMetric stat salt p split => exact hdeal stat salt _
  | randomMetricMulti stat salt deal => exact hdeal stat salt deal
  | metric stat min max interval noGutters =>
    exact ⟨_, rfl, fun _ => Pass.regroups_orRefused_bind hg fun values _ =>
      Pass.regroups_orRefused_bind hg fun buckets hb =>
        (Regroup.sends_byBuckets hg values (IntervalBuckets.proper_of_make hb)).regroups⟩
  | metric2d x y =>
    exact ⟨_, rfl, fun _ => Pass.regroups_orRefused_bind hg fun xs _ =>
      Pass.regroups_orRefused_bind hg fun ys _ => Pass.regroups_orRefused_bind hg fun a ha =>
        Pass.regroups_orRefused_bind hg fun b hb =>
          (Regroup.sends_byGrid hg xs ys (show (Grid.mk a b).x.Proper from Axis.proper_of_make ha)
            (Axis.proper_of_make hb)).regroups⟩
  | metricFilter stat min max negate =>
    exact ⟨_, rfl, fun _ => Pass.regroups_orRefused_bind hg fun values _ =>
      (Regroup.sends_byRange hg values min max negate).regroups⟩
  | remap sources destinations onlyRemapped =>
    exact ⟨_, rfl, fun _ => Regroup.regroups_byRemap hg sources destinations onlyRemapped⟩
  | _ => cases hc

theorem serves_reset (hs : s.Sound shard config 1 hand) :
    Serves shard config 1 hand s Command.reset.apply s Reports := by
  refine ends_bind (ends_bind ?_)
  have hreplace : (Pass.replace 1).Ensures s.grouping
      (fun _ g' => g'.WellFormed shard.numDocs ∧ True)
      fun _ g' => s.grouping.Unmoved shard.numDocs g' := by
    refine Pass.ensures_replace ⟨?_, trivial⟩
    rw [hs.wellFormed.len_eq]
    exact Grouping.wellFormed_constant 1 hs.wellFormed.numDocs_le
  refine (serves_onGrouping hs (Kept.refl s) hreplace).mono ?_ (fun _ _ he => he)
  rintro _ t ⟨ht, -⟩
  refine ends_modify (ends_bind (ends_get (ends_pure ⟨sound_forget ht none, fun n hn => ?_⟩)))
  cases hn
  rfl

/-- Every command serves the session, and a regroup ends in as many groups as it reports. -/
theorem serves_apply (hs : s.Sound shard config 1 hand) (c : Command) :
    Serves shard config 1 hand s c.apply s Reports := by
  by_cases hc : c.isRegroup = true
  · obtain ⟨body, hbody, h⟩ := exists_regroup hs hc
    rw [hbody]
    exact serves_groups hs h
  · cases c with
    | pushStat name => exact serves_other (fun _ _ => nofun) (serves_pushStat hs name)
    | popStat => exact serves_other (fun _ _ => nofun) (serves_popStat hs)
    | groupStats stat => exact serves_other (fun _ _ => nofun) (serves_groupStats hs stat)
    | createDynamic name =>
      exact serves_other (fun _ _ => nofun) (serves_createMetric hs name)
    | updateDynamic name deltas =>
      exact serves_other (fun _ _ => nofun) (serves_addByGroup hs name deltas)
    | conditionalUpdateDynamic name conditions deltas =>
      exact serves_other (fun _ _ => nofun) (serves_addByTerm hs name conditions deltas)
    | groupConditionalUpdateDynamic name groups conditions deltas =>
      exact serves_other (fun _ _ => nofun)
        (serves_addByGroupAndTerm hs name groups conditions deltas)
    | totalDocFreq intFields stringFields =>
      exact serves_get (serves_pure hs fun _ hn => by cases hn)
    | reset => exact serves_reset hs
    | _ => exact absurd rfl hc

end Session

end Cohort
