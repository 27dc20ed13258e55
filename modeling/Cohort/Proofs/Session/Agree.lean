import Cohort.Proofs.Regroup.Agree
import Cohort.Proofs.Session.Conclusions

/-!
# Agreement of sessions — the same request of two sessions

`Twins strict s s'`: two sessions of one shard show a caller the same, though they may be buffered
and paid for differently. A request of both ends alike and leaves twins; where the buffers differ in
size, as long as every value that it may read is there.
-/

namespace Cohort

namespace Session

open Memory.Ledger (Footing)

/-- The same groups, stats and metrics over ledgers that can be charged alike. -/
structure Twins (strict : Prop) (s s' : Session) : Prop where
  grouping_eq : s'.grouping = s.grouping
  stats_eq : s'.stats = s.stats
  metrics_eq : s'.metrics = s.metrics
  zeroCount_eq : s'.zeroCount = s.zeroCount
  footing : Footing strict s.ledger s'.ledger

variable {strict : Prop} {s s' : Session}

theorem Twins.withBuffers (h : Twins strict s s') (p p' : Memory.BufferPool) :
    Twins strict { s with buffers := p } { s' with buffers := p' } :=
  ⟨h.grouping_eq, h.stats_eq, h.metrics_eq, h.zeroCount_eq, h.footing⟩

theorem Twins.withCount (h : Twins strict s s') (n : Option Nat) :
    Twins strict { s with zeroCount := n } { s' with zeroCount := n } :=
  ⟨h.grouping_eq, h.stats_eq, h.metrics_eq, rfl, h.footing⟩

theorem Twins.metricNamed (h : Twins strict s s') (name : String) :
    s'.metricNamed name = s.metricNamed name := by
  unfold Session.metricNamed
  rw [h.metrics_eq]

end Session

namespace Call

open Session
open Memory.Ledger (Footing)

variable {α β : Type} {strict : Prop} {shard : Shard} {config config' : Config}
  {free hand hand' : Nat} {s s' : Session}

/-! ### Rules -/

theorem alike_onLedger {x y : Memory.Charge α} (ht : Twins strict s s')
    (h : Alike strict (Footing strict) (x s.ledger) (y s'.ledger)) :
    Alike strict (Twins strict) (onLedger x s) (onLedger y s') := by
  have hwith : ∀ {l l' : Memory.Ledger}, Footing strict l l' →
      Twins strict { s with ledger := l } { s' with ledger := l' } :=
    fun h => ⟨ht.grouping_eq, ht.stats_eq, ht.metrics_eq, ht.zeroCount_eq, h⟩
  unfold onLedger
  generalize x s.ledger = r at h
  generalize y s'.ledger = r' at h
  cases h with
  | ok h => exact .ok (hwith h)
  | refused h => exact .refused (hwith h)
  | broken => exact .broken
  | leftShort => exact .leftShort
  | rightShort h => exact .rightShort h

/-- Passes that agree on the grouping of the twins. -/
theorem alike_onGrouping {x y : Pass α} (hs : s.Sound shard config free hand)
    (hs' : s'.Sound shard config' free hand') (ht : Twins strict s s')
    (h : Pass.Agrees strict x y s.grouping) :
    Alike strict (Twins strict) (onGrouping x s) (onGrouping y s') := by
  have hpaid' := hs'.paid
  rw [ht.grouping_eq] at hpaid'
  have hrun := h.alike s.ledger s'.ledger hs.paid hpaid' ht.footing
  have hwith : ∀ {w w' : Workspace}, Pass.Meets strict w w' →
      Twins strict { s with ledger := w.ledger, grouping := w.grouping }
        { s' with ledger := w'.ledger, grouping := w'.grouping } :=
    fun ⟨hg, hl⟩ => ⟨hg.symm, ht.stats_eq, ht.metrics_eq, ht.zeroCount_eq, hl⟩
  unfold onGrouping
  rw [ht.grouping_eq]
  generalize x ⟨s.ledger, s.grouping⟩ = r at hrun
  generalize y ⟨s'.ledger, s.grouping⟩ = r' at hrun
  cases hrun with
  | ok h => exact .ok (hwith h)
  | refused h => exact .refused (hwith h)
  | broken => exact .broken
  | leftShort => exact .leftShort
  | rightShort h => exact .rightShort h

theorem alike_withBuffers {body body' : Feed → Call α} (hs : s.Sound shard config 1 hand)
    (hs' : s'.Sound shard config' 1 hand')
    (h : Alike strict (Twins strict)
      (body ⟨shard, config.bufferSize⟩ { s with buffers := bufferPool config 0 })
      (body' ⟨shard, config'.bufferSize⟩ { s' with buffers := bufferPool config' 0 })) :
    Alike strict (Twins strict) (withBuffers body s) (withBuffers body' s') := by
  rw [withBuffers_eq hs, withBuffers_eq hs']
  exact alike_finally_modify h fun _ _ ht => ht.withBuffers _ _

/-- A regroup of both, which may use the stats that they share. -/
theorem alike_regroup {body : Session → Feed → Pass Nat} (hs : s.Sound shard config 1 hand)
    (hs' : s'.Sound shard config' 1 hand') (ht : Twins strict s s')
    (h : ∀ t t' : Session, t.stats = s.stats → t'.stats = s.stats →
      Pass.Agrees strict (body t ⟨shard, config.bufferSize⟩) (body t' ⟨shard, config'.bufferSize⟩)
        s.grouping) :
    Alike strict (Twins strict) (regroup body s) (regroup body s') := by
  refine alike_withBuffers hs hs' (alike_get_bind (alike_finally_modify
    (alike_onGrouping (hs.withFree 0) (hs'.withFree 0) (ht.withBuffers _ _) ?_)
    fun _ _ ht => ht.withCount none))
  exact h _ _ rfl ht.stats_eq

/-- A stat that both read before their passes. -/
theorem agrees_stat {g : Grouping} {t t' : Session} (ht : t.stats = s.stats)
    (ht' : t'.stats = s.stats) {index : Nat} {f f' : ValueTable → Pass Nat}
    (h : ∀ values, s.stats.get index = .ok values → Pass.Agrees strict (f values) (f' values) g) :
    Pass.Agrees strict (orRefused (t.stats.get index) >>= f) (orRefused (t'.stats.get index) >>= f')
      g := by
  rw [ht, ht']
  exact Pass.agrees_orRefused_bind h

/-! ### Stats and metrics -/

section Requests

variable (hs : s.Sound shard config 1 hand) (hs' : s'.Sound shard config' 1 hand')
  (ht : Twins strict s s')
include ht

theorem alike_pushValues (name : String) (values : ValueTable) :
    Alike strict (Twins strict) (pushValues name values s) (pushValues name values s') := by
  have hpush : Alike strict (Footing strict) (s.stats.push name values s.ledger)
      (s'.stats.push name values s'.ledger) := by
    rw [ht.stats_eq]
    refine alike_bind (alike_orRefused ht.footing) fun _ l l' hl _ _ => ?_
    exact alike_bind (Memory.alike_claim hl fun _ => rfl) fun _ m m' hm _ _ => alike_pure hm
  refine alike_get_bind (alike_bind (alike_onLedger ht hpush) fun stats t t' ht _ _ => ?_)
  have hstats : Twins strict { t with stats } { t' with stats } :=
    ⟨ht.grouping_eq, rfl, ht.metrics_eq, ht.zeroCount_eq, ht.footing⟩
  exact alike_bind (alike_modify hstats) fun _ u u' hu _ _ => alike_pure hu

theorem alike_createMetric (name : String) :
    Alike strict (Twins strict) (createMetric name s) (createMetric name s') := by
  have hdocs : s'.numDocs = s.numDocs := by
    unfold Session.numDocs
    rw [ht.grouping_eq]
  refine alike_get_bind ?_
  rw [ht.metrics_eq, hdocs]
  refine alike_bind (alike_orRefused ht) fun _ t t' ht _ _ => ?_
  refine alike_bind (alike_onLedger ht (Memory.alike_claim ht.footing fun _ => rfl)) ?_
  intro _ u u' hu _ _
  refine alike_modify ⟨hu.grouping_eq, hu.stats_eq, ?_, hu.zeroCount_eq, hu.footing⟩
  simp only [hu.metrics_eq, Session.numDocs, hu.grouping_eq]

include hs hs'

theorem alike_pushStat (name : String) :
    Alike strict (Twins strict) (pushStat name s) (pushStat name s') := by
  refine alike_get_bind ?_
  rw [hs.shard_eq, hs'.shard_eq]
  have hmetric : ∀ metric, (s'.metricNamed metric).map Counters.snapshot =
      (s.metricNamed metric).map Counters.snapshot := fun metric => by rw [ht.metricNamed]
  simp only [hmetric]
  refine alike_bind (alike_orRefused ht) fun values t t' ht _ _ => ?_
  exact alike_pushValues ht name values

theorem alike_popStat : Alike strict (Twins strict) (popStat s) (popStat s') := by
  have hpop : Alike strict (Footing strict) (s.stats.pop s.ledger) (s'.stats.pop s'.ledger) := by
    have h := hs.used_eq
    have h' := hs'.used_eq
    unfold heldBytes at h h'
    rw [ht.stats_eq] at h' ⊢
    unfold StatStack.pop
    cases hback : s.stats.stats.back? with
    | none => exact alike_throw ht.footing
    | some stat =>
      have hbytes := StatStack.bytes_pop hback
      refine alike_bind (Memory.alike_release ht.footing hs.coherent hs'.coherent (by omega)
        (by omega) fun _ => rfl) fun _ l l' hl _ _ => alike_pure hl
  refine alike_get_bind (alike_bind (alike_onLedger ht hpop) fun stats t t' ht _ _ => ?_)
  have hstats : Twins strict { t with stats } { t' with stats } :=
    ⟨ht.grouping_eq, rfl, ht.metrics_eq, ht.zeroCount_eq, ht.footing⟩
  exact alike_bind (alike_modify hstats) fun _ u u' hu _ _ => alike_pure hu

theorem alike_groupStats (index : Nat) :
    Alike strict (Twins strict) (groupStats index s) (groupStats index s') := by
  have hstat : Alike strict (Twins strict) (stat index s) (stat index s') := by
    refine alike_get_bind ?_
    rw [ht.stats_eq]
    exact alike_orRefused ht
  refine alike_bind hstat fun values t t' _ hrun hrun' => ?_
  have hrun : orRefused (s.stats.get index) s = .ok values t := hrun
  have hrun' : orRefused (s'.stats.get index) s' = .ok values t' := hrun'
  obtain ⟨-, rfl⟩ := orRefused_ok hrun
  obtain ⟨-, rfl⟩ := orRefused_ok hrun'
  have hsums : sumByGroup? t'.grouping config'.bufferSize values =
      sumByGroup? t.grouping config.bufferSize values := by
    rw [ht.grouping_eq, sumByGroup?_eq _ config'.bufferSize, sumByGroup?_eq _ config.bufferSize]
  refine alike_withBuffers hs hs' (alike_get_bind ?_)
  show Alike strict _ (orBroken (sumByGroup? t.grouping config.bufferSize values) _)
    (orBroken (sumByGroup? t'.grouping config'.bufferSize values) _)
  rw [hsums]
  exact alike_orBroken (ht.withBuffers _ _)

/-- Updates of the counters that both have. -/
theorem alike_updateMetric (name : String) {f : Feed → Counters → Call Counters}
    (hf : ∀ c t t', t.Sound shard config 0 hand → t'.Sound shard config' 0 hand' →
      Twins strict t t' → Alike strict (Twins strict) (f ⟨shard, config.bufferSize⟩ c t)
        (f ⟨shard, config'.bufferSize⟩ c t')) :
    Alike strict (Twins strict) (updateMetric name f s) (updateMetric name f s') := by
  refine alike_get_bind ?_
  rw [ht.metricNamed]
  refine alike_bind (alike_orRefused ht) fun c t t' _ hrun hrun' => ?_
  obtain ⟨-, rfl⟩ := orRefused_ok hrun
  obtain ⟨-, rfl⟩ := orRefused_ok hrun'
  refine alike_withBuffers hs hs' (alike_bind (hf c _ _ (hs.withFree 0) (hs'.withFree 0)
    (ht.withBuffers _ _)) fun c' u u' hu _ _ => ?_)
  refine alike_modify ⟨hu.grouping_eq, hu.stats_eq, ?_, hu.zeroCount_eq, hu.footing⟩
  simp only [hu.metrics_eq]

theorem alike_addByGroup (name : String) (deltas : List Int) :
    Alike strict (Twins strict) (addByGroup name deltas s) (addByGroup name deltas s') := by
  refine alike_updateMetric hs hs' ht name fun c t t' _ _ ht => alike_get_bind ?_
  rw [ht.grouping_eq, c.addByGroup?_eq _ config'.bufferSize, ← c.addByGroup?_eq _ config.bufferSize]
  exact alike_orBroken ht

theorem alike_addByTerm (hc : 0 < config.bufferSize) (hc' : 0 < config'.bufferSize)
    (name : String) (conditions : List Condition) (deltas : List Int) :
    Alike strict (Twins strict) (addByTerm name conditions deltas s)
      (addByTerm name conditions deltas s') := by
  refine alike_updateMetric hs hs' ht name fun c t t' _ _ ht => ?_
  refine alike_bind (alike_orRefused ht) fun _ u u' hu _ _ => ?_
  rw [@Counters.addByTerm?_eq ⟨shard, config'.bufferSize⟩ hc',
    @Counters.addByTerm?_eq ⟨shard, config.bufferSize⟩ hc]
  exact alike_orBroken hu

theorem alike_addByGroupAndTerm (ha : shard.Ascending) (hc : 0 < config.bufferSize)
    (hc' : 0 < config'.bufferSize) (name : String) (groups : List Nat)
    (conditions : List Condition) (deltas : List Int) :
    Alike strict (Twins strict) (addByGroupAndTerm name groups conditions deltas s)
      (addByGroupAndTerm name groups conditions deltas s') := by
  refine alike_updateMetric hs hs' ht name fun c t t' hs hs' ht => ?_
  refine alike_bind (alike_orRefused ht) fun _ u u' _ hrun hrun' => alike_get_bind ?_
  obtain ⟨-, rfl⟩ := orRefused_ok hrun
  obtain ⟨-, rfl⟩ := orRefused_ok hrun'
  refine alike_onGrouping hs hs' ht ?_
  simp only [ht.grouping_eq]
  refine Pass.agrees_scratch (fun _ => rfl) ?_
  rw [@Counters.addByGroupAndTerm?_eq _ ⟨shard, config'.bufferSize⟩ ha hc' hs.wellFormed _
      Counters.lt_of_mem_liveEntries,
    @Counters.addByGroupAndTerm?_eq _ ⟨shard, config.bufferSize⟩ ha hc hs.wellFormed _
      Counters.lt_of_mem_liveEntries]
  exact Pass.agrees_orBroken _

/-! ### All requests -/

theorem alike_regexBy (hc : 0 < config.bufferSize) (hc' : 0 < config'.bufferSize)
    (engine : Regex.Engine) (field pattern : String) (split : Split) :
    Alike strict (Twins strict) (regexBy engine field pattern split s)
      (regexBy engine field pattern split s') := by
  refine alike_regroup hs hs' ht fun _ _ _ _ => Pass.agrees_grouping ?_
  by_cases htwo : 2 < s.grouping.numGroups
  · simp only [if_pos htwo]
    have hx : (throw (.refused (.illegalState (.tooManyGroups (s.grouping.numGroups - 1)))) :
        Pass Unit).Ensures s.grouping (fun _ _ => False) fun _ _ => True :=
      Pass.ensures_refusal trivial
    exact Pass.agrees_bind hx (Pass.agrees_refusal _) fun _ _ h => h.elim
  · simp only [if_neg htwo]
    refine Pass.agrees_unlessFilteredOut ?_
    cases engine.enclosed? pattern with
    | none => exact Pass.agrees_refusal _
    | some re => exact Regroup.agrees_splitByPostings hc hc' hs.wellFormed.len_le _ split

theorem alike_randomMetricMulti (hn : s.numGroups ≤ maxId)
    (hcovers : config'.bufferSize ≠ config.bufferSize → s.stats.Covers shard.numDocs)
    (stat : Nat) (salt : String) (deal : Regroup.Deal) :
    Alike strict (Twins strict) (randomMetricMulti stat salt deal s)
      (randomMetricMulti stat salt deal s') := by
  refine alike_regroup hs hs' ht fun t t' h h' => agrees_stat h h' fun values hv => ?_
  exact Regroup.agrees_dealByValues (Counted.of_sound hs hn)
    (fun hsize => (hcovers hsize).of_get hv) deal

theorem alike_reset : Alike strict (Twins strict) (Command.reset.apply s)
    (Command.reset.apply s') := by
  refine alike_bind (alike_bind (alike_onGrouping hs hs' ht (Pass.agrees_replace 1)) ?_) ?_
  · exact fun _ t t' ht _ _ => alike_modify (ht.withCount none)
  · intro _ t t' ht _ _
    refine alike_get_bind ?_
    unfold Session.numGroups
    rw [ht.grouping_eq]
    exact alike_pure ht

/-- A command of both. Buffers of different sizes only matter to strict runs, which count bytes. -/
theorem alike_apply (ha : shard.Ascending) (hc : 0 < config.bufferSize)
    (hc' : 0 < config'.bufferSize) (hsize : strict → config'.bufferSize = config.bufferSize)
    (hn : s.numGroups ≤ maxId)
    (hcovers : config'.bufferSize ≠ config.bufferSize → s.stats.Covers shard.numDocs)
    (c : Command) :
    Alike strict (Twins strict) (c.apply s) (c.apply s') := by
  have hg := Counted.of_sound hs hn
  cases c with
  | regroupMulti rules errorOnCollisions =>
    exact alike_map (alike_regroup hs hs' ht fun _ _ _ _ =>
      Regroup.agrees_byMultiRules hc hc' hg.toWellFormed ha rules errorOnCollisions)
  | regroupRules rules =>
    exact alike_map (alike_regroup hs hs' ht fun _ _ _ _ =>
      Regroup.agrees_byRules hc hc' hg.len_le rules)
  | intOr field terms split =>
    exact alike_map (alike_regroup hs hs' ht fun _ _ _ _ =>
      Regroup.agrees_splitByAny hc hc' hg.len_le _ terms split)
  | stringOr field terms split =>
    exact alike_map (alike_regroup hs hs' ht fun _ _ _ _ =>
      Regroup.agrees_splitByAny hc hc' hg.len_le _ terms split)
  | regex field pattern split =>
    exact alike_map (alike_regexBy hs hs' ht hc hc' .standard field pattern split)
  | query rule =>
    exact alike_map (alike_regroup hs hs' ht fun _ _ _ _ =>
      Regroup.agrees_splitByQuery hg.len_le rule)
  | random field isInt salt p split =>
    exact alike_map (alike_regroup hs hs' ht fun _ _ _ _ =>
      Regroup.agrees_dealByPostings hc hc' hg.len_le _ _
        (Regroup.Deal.negative_mem_twoWay split p))
  | randomMulti field isInt salt deal =>
    exact alike_map (alike_regroup hs hs' ht fun _ _ _ _ =>
      Regroup.agrees_dealByPostings hc hc' hg.len_le _ deal nofun)
  | randomMetric stat salt p split =>
    exact alike_map (alike_randomMetricMulti hs hs' ht hn hcovers stat salt (.twoWay split p))
  | randomMetricMulti stat salt deal =>
    exact alike_map (alike_randomMetricMulti hs hs' ht hn hcovers stat salt deal)
  | metric stat min max interval noGutters =>
    exact alike_map (alike_regroup hs hs' ht fun _ _ h h' => agrees_stat h h' fun values _ =>
      Pass.agrees_orRefused_bind fun buckets _ =>
        Regroup.agrees_byBuckets hg.len_le values buckets)
  | metric2d x y =>
    -- a grid borrows bytes for a chunk of values, so strict runs need chunks of one size
    exact alike_map (alike_regroup hs hs' ht fun _ _ h h' => agrees_stat h h' fun xs _ =>
      agrees_stat h h' fun ys _ => Pass.agrees_orRefused_bind fun i _ =>
        Pass.agrees_orRefused_bind fun j _ =>
          Regroup.agrees_byGrid hg.len_le hsize xs ys ⟨i, j⟩)
  | metricFilter stat min max negate =>
    exact alike_map (alike_regroup hs hs' ht fun _ _ h h' => agrees_stat h h' fun values _ =>
      Regroup.agrees_byRange hg.len_le values min max negate)
  | remap sources destinations onlyRemapped =>
    exact alike_map (alike_regroup hs hs' ht fun _ _ _ _ =>
      Regroup.agrees_byRemap hg.len_le sources destinations onlyRemapped)
  | pushStat name => exact alike_map (alike_pushStat hs hs' ht name)
  | popStat => exact alike_map (alike_popStat hs hs' ht)
  | groupStats stat => exact alike_map (alike_groupStats hs hs' ht stat)
  | createDynamic name => exact alike_map (alike_createMetric ht name)
  | updateDynamic name deltas => exact alike_map (alike_addByGroup hs hs' ht name deltas)
  | conditionalUpdateDynamic name conditions deltas =>
    exact alike_map (alike_addByTerm hs hs' ht hc hc' name conditions deltas)
  | groupConditionalUpdateDynamic name groups conditions deltas =>
    exact alike_map (alike_addByGroupAndTerm hs hs' ht ha hc hc' name groups conditions deltas)
  | totalDocFreq intFields stringFields =>
    refine alike_get_bind ?_
    unfold totalDocFreq
    rw [hs.shard_eq, hs'.shard_eq]
    exact alike_pure ht
  | reset => exact alike_reset hs hs' ht

/-- A request of both sessions ends alike. -/
theorem alike_request (ha : shard.Ascending) (hc : 0 < config.bufferSize)
    (hc' : 0 < config'.bufferSize) (hsize : strict → config'.bufferSize = config.bufferSize)
    (hn : s.numGroups ≤ maxId)
    (hcovers : config'.bufferSize ≠ config.bufferSize → s.stats.Covers shard.numDocs)
    (r : Request) :
    Alike strict (Twins strict) (r.apply s) (r.apply s') := by
  cases r with
  | command c => exact alike_map (alike_apply hs hs' ht ha hc hc' hsize hn hcovers c)
  | pushValues name values => exact alike_map (alike_pushValues ht name values)
  | groupOf doc =>
    refine alike_map (alike_get_bind ?_)
    rw [ht.grouping_eq]
    exact alike_orBroken ht
  | exportGroups entries =>
    refine alike_map (alike_get_bind ?_)
    unfold Session.numDocs
    rw [ht.grouping_eq]
    exact alike_bind (alike_orRefused ht) fun _ t t' ht _ _ => alike_pure ht
  | zeroGroupDocs =>
    refine alike_map (alike_get_bind ?_)
    rw [ht.grouping_eq, ht.zeroCount_eq]
    cases s.zeroCount with
    | some n => exact alike_pure ht
    | none =>
      exact alike_bind (alike_modify (ht.withCount _)) fun _ t t' ht _ _ => alike_pure ht
  | stat index =>
    refine alike_map (alike_get_bind ?_)
    rw [ht.stats_eq]
    exact alike_orRefused ht
  | metric name =>
    refine alike_get_bind ?_
    rw [ht.metricNamed]
    exact alike_bind (alike_orRefused ht) fun _ t t' ht _ _ => alike_pure ht

end Requests

end Call

end Cohort
