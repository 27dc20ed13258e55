import Cohort.Proofs.Session.Reachable
import Cohort.Proofs.Session.TermUpdates

/-!
# Conclusions — when calls go through, and what refused ones leave

Of every call: it leaves no more groups than can be counted, it breaks at most if its arguments are
not `Admissible` or a stat misses values of some document, and refused it leaves the grouping or
makes room in it. For all but a few regroups that room is the last claim, so they do not even do
that: `Command.Leaves`.
-/

namespace Cohort

/-! ### Stats -/

namespace StatStack

/-- All tables on the stack have a value for each of `numDocs` documents. -/
def Covers (s : StatStack) (numDocs : Nat) : Prop := ∀ x ∈ s.stats, x.values.Covers numDocs

variable {s : StatStack} {numDocs : Nat}

theorem Covers.of_get (hs : s.Covers numDocs) {index : Nat} {values : ValueTable}
    (h : s.get index = .ok values) : values.Covers numDocs := by
  unfold get at h
  split at h
  · rename_i x hx
    cases h
    exact hs x (Array.mem_of_getElem? hx)
  · cases h

theorem Covers.not_missing (hs : s.Covers numDocs) {index : Nat} :
    ¬ ∃ values, s.get index = .ok values ∧ ¬ values.Covers numDocs :=
  fun ⟨_, hv, hnot⟩ => hnot (hs.of_get hv)

theorem Covers.push (hs : s.Covers numDocs) {name : String} {values : ValueTable}
    (hv : values.Covers numDocs) :
    ({ s with stats := s.stats.push ⟨name, values⟩ } : StatStack).Covers numDocs := by
  intro x hx
  rcases Array.mem_push.mp hx with hx | rfl
  · exact hs x hx
  · exact hv

theorem Covers.pop (hs : s.Covers numDocs) :
    ({ s with stats := s.stats.pop } : StatStack).Covers numDocs := by
  intro x hx
  rw [← Array.mem_toList_iff, Array.toList_pop] at hx
  exact hs x (Array.mem_toList_iff.mp ((List.dropLast_sublist _).subset hx))

end StatStack

/-- The numeric view of a field has a value for every document. -/
theorem Shard.covers_valueTable? {s : Shard} {field : String} {t : ValueTable}
    (h : s.valueTable? field = some t) : t.Covers s.numDocs := by
  obtain ⟨p, -, rfl⟩ := Option.map_eq_some_iff.mp h
  have hdocs : ∀ (term : Int) (docs : List Nat) (values : Array Int),
      (docs.foldl (fun vs doc => vs.setIfInBounds doc term) values).size = values.size := by
    intro term docs
    induction docs with
    | nil => exact fun _ => rfl
    | cons d docs ih => exact fun values => (ih _).trans Array.size_setIfInBounds
  have hentries : ∀ (entries : List (Int × List Nat)) (values : Array Int),
      (entries.foldl (fun values e =>
        e.2.foldl (fun vs doc => vs.setIfInBounds doc e.1) values) values).size = values.size := by
    intro entries
    induction entries with
    | nil => exact fun _ => rfl
    | cons e entries ih => exact fun values => (ih _).trans (hdocs e.1 e.2 values)
  exact ((hentries p.entries _).trans Array.size_replicate).ge

theorem Stat.covers_resolve {shard : Shard} {name : String} {t : ValueTable}
    (h : Stat.resolve shard name = .ok t) : t.Covers shard.numDocs := by
  unfold resolve at h
  split at h
  · cases h
    trivial
  · split at h
    · cases h
      trivial
    · split at h
      · rename_i ht
        cases h
        exact Shard.covers_valueTable? ht
      · cases h

/-! ### Admissible requests -/

/-- The arguments keep all groups that the command can write below the largest id, over
`numGroups` groups. The conditions of multi-condition rules are numbered by ids as well. -/
def Command.Admissible (numGroups : Nat) : Command → Prop
  | .regroupMulti rules _ =>
    (∀ r ∈ rules, r.maxGroup < maxId) ∧ MultiRule.numConditions rules < maxId
  | .regroupRules rules => ∀ r ∈ rules, r.maxGroup < maxId
  | .intOr _ _ split | .stringOr _ _ split | .regex _ _ split | .random _ _ _ _ split
  | .randomMetric _ _ _ split => split.maxGroup < maxId
  | .query rule => rule.split.maxGroup < maxId
  | .randomMulti _ _ _ deal | .randomMetricMulti _ _ deal => ∀ x ∈ deal.results, x < maxId
  | .metric _ min max width noGutters => ∀ b, IntervalBuckets.make min max width noGutters = .ok b →
      (numGroups - 1) * b.total < maxId
  | .metric2d x y => ∀ a b, Axis.make "x" x.min x.max x.width = .ok a →
      Axis.make "y" y.min y.max y.width = .ok b → a.count * b.count < maxId
  | .remap _ destinations _ => ∀ x ∈ destinations, x < maxId
  | _ => True

/-- Tables that are pushed have a value for every document. -/
def Request.Covering (numDocs : Nat) : Request → Prop
  | pushValues _ values => values.Covers numDocs
  | _ => True

/-- Tables that are pushed have a value for every document, and documents that are named exist. -/
def Request.Admissible (s : Session) : Request → Prop
  | command c => c.Admissible s.numGroups
  | pushValues _ values => values.Covers s.numDocs
  | groupOf doc => doc < s.numDocs
  | _ => True

theorem Request.Admissible.covering {s : Session} {r : Request} (h : r.Admissible s) :
    r.Covering s.numDocs := by
  cases r with
  | pushValues name values => exact h
  | _ => trivial

/-- What a refused command leaves of a grouping. -/
def Command.Leaves (g g' : Grouping) : Command → Prop
  | .regroupMulti _ _ | .regroupRules _ | .intOr _ _ _ | .stringOr _ _ _ | .regex _ _ _
  | .random _ _ _ _ _ | .randomMulti _ _ _ _ | .metric2d _ _ => g.Grown g'
  | _ => g' = g

theorem Command.Leaves.grown {g g' : Grouping} {c : Command} (h : c.Leaves g g') : g.Grown g' := by
  cases c <;> first | exact h | exact .inl h

/-- What a refused request leaves of a grouping. -/
def Request.Leaves (g g' : Grouping) : Request → Prop
  | command c => c.Leaves g g'
  | _ => g' = g

/-! ### Calls -/

namespace Call

open Session

variable {α β : Type} {shard : Shard} {config : Config} {hand : Nat} {s : Session}
  {refused : Error → Grouping → Prop} {covers broken : Prop}

/-- A regroup that goes through leaves as many groups as can be counted, and the stats; it is
refused with `refused` of the error and the grouping then, and breaks only if `broken`. -/
def Concludes (x : Call Nat) (s : Session) (refused : Error → Grouping → Prop) (broken : Prop) :
    Prop :=
  Ends x s (fun _ s' => s'.numGroups ≤ maxId ∧ s'.stats = s.stats)
    (OnFailure (fun e s' => refused e s'.grouping) broken)

/-- A pass over a grouping that is paid for. -/
theorem ends_onGrouping {x : Pass α} {ok : α → Grouping → Prop} {free : Nat}
    (hs : s.Sound shard config free hand) (h : x.Completes s.grouping ok refused broken) :
    Ends (onGrouping x) s (fun a t => ok a t.grouping ∧ t.stats = s.stats)
      (OnFailure (fun e t => refused e t.grouping) broken) := by
  have hx := h s.ledger hs.paid
  unfold Ends at hx ⊢
  unfold onGrouping
  split at hx <;> rename_i hrun <;> simp only [hrun]
  · exact ⟨hx.2, trivial⟩
  · rename_i e w
    cases e with
    | refused e => exact hx.2
    | broken => exact hx

/-- The three ways a regroup can end. -/
theorem Concludes.outcome {x : Call Nat} (h : Concludes x s refused broken) :
    (∃ n s', x s = .ok n s') ∨ (∃ e s', x s = .error (.refused e) s' ∧ refused e s'.grouping) ∨
      ((∃ s', x s = .error .broken s') ∧ broken) := by
  unfold Concludes Ends at h
  cases hx : x s with
  | ok n s' => exact .inl ⟨n, s', rfl⟩
  | error e s' =>
    rw [hx] at h
    cases e with
    | refused e => exact .inr (.inl ⟨e, s', rfl, h⟩)
    | broken => exact .inr (.inr ⟨⟨s', rfl⟩, h⟩)

/-- A regroup ends the way its pass does. -/
theorem ends_regroup_of_completes {body : Session → Feed → Pass Nat} {ok : Nat → Grouping → Prop}
    (hs : s.Sound shard config 1 hand)
    (h : ∀ t : Session, t.stats = s.stats →
      (body t ⟨shard, config.bufferSize⟩).Completes s.grouping ok refused broken) :
    Ends (regroup body) s (fun n s' => ok n s'.grouping ∧ s'.stats = s.stats)
      (OnFailure (fun e s' => refused e s'.grouping) broken) := by
  have hx := h { s with buffers := bufferPool config 0 } rfl
  refine ends_regroup hs ((ends_onGrouping (hs.withFree 0) hx).mono (fun _ _ ha => ha) ?_)
  rintro (e | _) t he
  · exact he
  · exact he

theorem concludes_regroup {body : Session → Feed → Pass Nat} (hs : s.Sound shard config 1 hand)
    (h : ∀ t : Session, t.stats = s.stats →
      Pass.Concludes (body t ⟨shard, config.bufferSize⟩) s.grouping refused broken) :
    Concludes (regroup body) s refused broken :=
  ends_regroup_of_completes hs h

/-- A stat that is read before the pass. -/
theorem concludes_stat {index : Nat} {f : ValueTable → Pass Nat}
    (herr : ∀ e, s.stats.get index = .error e → refused e s.grouping)
    (h : ∀ values, s.stats.get index = .ok values →
      Pass.Concludes (f values) s.grouping refused broken) {t : Session} (ht : t.stats = s.stats) :
    Pass.Concludes (orRefused (t.stats.get index) >>= f) s.grouping refused broken := by
  rw [ht]
  exact Pass.completes_bind (Pass.completes_orRefused h herr)

theorem get_error {stats : StatStack} {index : Nat} {e : Error}
    (h : stats.get index = .error e) : e.IsArgumentOrMemory := by
  unfold StatStack.get at h
  split at h
  · cases h
  · cases h
    trivial

/-! ### Regroups by stats -/

theorem Counted.of_sound (hs : s.Sound shard config 1 hand) (hn : s.numGroups ≤ maxId) :
    s.grouping.Counted shard.numDocs :=
  ⟨hs.wellFormed, hn⟩

/-- Bucketing by a stat breaks at most if it misses a value, or if its highest group would be the
largest id. -/
theorem concludes_metric (hs : s.Sound shard config 1 hand) (hn : s.numGroups ≤ maxId)
    (stat : Nat) (min max width : Int) (noGutters : Bool) :
    Concludes (metric stat min max width noGutters) s
      (fun e g' => e.IsArgumentOrMemory ∧ g' = s.grouping)
      ((∃ values, s.stats.get stat = .ok values ∧ ¬ values.Covers shard.numDocs) ∨
        ∃ b, IntervalBuckets.make min max width noGutters = .ok b ∧
          (s.numGroups - 1) * b.total = maxId) := by
  refine concludes_regroup hs fun t ht => concludes_stat (fun e he => ⟨get_error he, rfl⟩) ?_ ht
  intro values hv
  refine Pass.completes_bind (Pass.completes_orRefused (fun b hb => ?_)
    fun e he => ⟨IntervalBuckets.make_error he, rfl⟩)
  refine (Regroup.concludes_byBuckets (Counted.of_sound hs hn) values
    (IntervalBuckets.proper_of_make hb)).mono (fun _ _ h => h) (fun _ _ h => h) ?_
  rintro (h | h)
  · exact .inr ⟨b, hb, h⟩
  · exact .inl ⟨values, hv, h⟩

theorem concludes_metric2d (hs : s.Sound shard config 1 hand) (hn : s.numGroups ≤ maxId)
    (x y : AxisRange) :
    Concludes (metric2d x y) s (fun e g' => e.IsArgumentOrMemory ∧ s.grouping.Grown g')
      ((∃ index ∈ [x.stat, y.stat], ∃ values, s.stats.get index = .ok values ∧
          ¬ values.Covers shard.numDocs) ∨
        ∃ a b, Axis.make "x" x.min x.max x.width = .ok a ∧
          Axis.make "y" y.min y.max y.width = .ok b ∧ a.count * b.count = maxId) := by
  have hg := s.grouping.grown_refl
  refine concludes_regroup hs fun t ht => concludes_stat (fun e he => ⟨get_error he, hg⟩) ?_ ht
  intro xs hxs
  refine concludes_stat (fun e he => ⟨get_error he, hg⟩) (fun ys hys => ?_) ht
  refine Pass.completes_bind (Pass.completes_orRefused (fun a ha => ?_)
    fun e he => ⟨Axis.make_error he, hg⟩)
  refine Pass.completes_bind (Pass.completes_orRefused (fun b hb => ?_)
    fun e he => ⟨Axis.make_error he, hg⟩)
  refine (Regroup.concludes_byGrid (Counted.of_sound hs hn) xs ys (Axis.proper_of_make ha)
    (Axis.proper_of_make hb)).mono (fun _ _ h => h) (fun _ _ h => h) ?_
  rintro (h | h | h)
  · exact .inr ⟨a, b, ha, hb, h⟩
  · exact .inl ⟨x.stat, by simp, xs, hxs, h⟩
  · exact .inl ⟨y.stat, by simp, ys, hys, h⟩

/-! ### Calls that keep the grouping -/

/-- A call that keeps the grouping, and after which the tables on the stack cover the documents if
`covers`; a check breaks only if `broken`. -/
def Preserves (x : Call α) (s : Session) (numDocs : Nat) (covers broken : Prop) : Prop :=
  Ends x s (fun _ s' => s'.grouping = s.grouping ∧ (covers → s'.stats.Covers numDocs))
    (OnFailure (fun _ s' => s'.grouping = s.grouping) broken)

theorem preserves_pure {numDocs : Nat} (hc : covers → s.stats.Covers numDocs) (a : α) :
    Preserves (pure a) s numDocs covers broken :=
  ends_pure ⟨rfl, hc⟩

theorem preserves_map {x : Call β} {f : β → α} {numDocs : Nat}
    (h : Preserves x s numDocs covers broken) : Preserves (f <$> x) s numDocs covers broken :=
  ends_map h

theorem preserves_get {f : Session → Call α} {numDocs : Nat}
    (h : Preserves (f s) s numDocs covers broken) : Preserves (get >>= f) s numDocs covers broken :=
  ends_bind (ends_get h)

theorem preserves_orRefused {r : Except Error β} {f : β → Call α} {numDocs : Nat}
    (h : ∀ b, r = .ok b → Preserves (f b) s numDocs covers broken) :
    Preserves (orRefused r >>= f) s numDocs covers broken :=
  ends_bind (ends_orRefused h fun _ _ => rfl)

theorem preserves_orBroken {o : Option α} {numDocs : Nat} (hc : covers → s.stats.Covers numDocs)
    (ho : ¬ broken → ∃ a, o = some a) : Preserves (orBroken o) s numDocs covers broken := by
  cases o with
  | none =>
    refine ends_throw ?_
    by_contra hb
    obtain ⟨a, ha⟩ := ho hb
    cases ha
  | some a => exact ends_pure ⟨rfl, hc⟩

/-- A call between calls that keeps the grouping and the stats. -/
theorem preserves_bind {x : Call β} {f : β → Call α} {numDocs : Nat}
    (hx : Ends x s (fun _ t => t.grouping = s.grouping ∧ t.stats = s.stats)
      (OnFailure (fun _ t => t.grouping = s.grouping) broken))
    (h : ∀ b t, t.grouping = s.grouping → t.stats = s.stats →
      Preserves (f b) t numDocs covers broken) : Preserves (x >>= f) s numDocs covers broken := by
  refine ends_bind (hx.mono ?_ (fun _ _ he => he))
  rintro b t ⟨hg, hstats⟩
  refine (h b t hg hstats).mono ?_ ?_
  · rintro a u ⟨hu, hc⟩
    exact ⟨hu.trans hg, hc⟩
  · rintro (e | _) u he
    · exact Eq.trans he hg
    · exact he

theorem preserves_withBuffers {body : Feed → Call α} {numDocs : Nat}
    (hs : s.Sound shard config 1 hand)
    (h : Preserves (body ⟨shard, config.bufferSize⟩) { s with buffers := bufferPool config 0 }
      numDocs covers broken) : Preserves (withBuffers body) s numDocs covers broken := by
  refine ends_withBuffers hs (h.mono (fun _ _ ha => ha) ?_)
  rintro (e | _) t he
  · exact he
  · exact he

section Stats

variable (hs : s.Sound shard config 1 hand)
include hs

theorem preserves_pushValues (name : String) {values : ValueTable}
    (hc : covers → s.stats.Covers shard.numDocs ∧ values.Covers shard.numDocs) :
    Preserves (pushValues name values) s shard.numDocs covers broken := by
  refine ends_bind (ends_get (ends_bind (ends_onLedger ?_)))
  refine ends_bind (ends_orRefused (fun _ _ => ?_) fun _ _ => rfl)
  refine ends_bind (Memory.ends_claim hs.coherent (fun l _ _ _ => ?_) rfl)
  refine ends_pure (ends_bind (ends_modify (ends_pure ⟨rfl, fun hb => ?_⟩)))
  exact (hc hb).1.push (hc hb).2

theorem preserves_pushStat (name : String) (hc : covers → s.stats.Covers shard.numDocs) :
    Preserves (pushStat name) s shard.numDocs covers broken := by
  refine preserves_get (preserves_orRefused fun values hv => ?_)
  refine preserves_pushValues hs name fun hb => ⟨hc hb, ?_⟩
  split at hv
  · rename_i metric _
    cases hm : s.metricNamed metric with
    | error e =>
      rw [hm] at hv
      cases hv
    | ok c =>
      rw [hm] at hv
      cases hv
      exact (hs.metricNamed hm).size_eq.ge
  · rw [hs.shard_eq] at hv
    exact Stat.covers_resolve hv

theorem preserves_popStat (hc : covers → s.stats.Covers shard.numDocs) :
    Preserves popStat s shard.numDocs covers broken := by
  refine ends_bind (ends_get (ends_bind (ends_onLedger ?_)))
  unfold StatStack.pop
  cases hback : s.stats.stats.back? with
  | none => exact ends_throw rfl
  | some stat =>
    have hbytes := StatStack.bytes_pop hback
    have h := hs.used_eq
    unfold heldBytes at h
    refine ends_bind (Memory.ends_release hs.coherent (by omega) fun l _ _ _ => ?_)
    exact ends_pure (ends_bind (ends_modify (ends_pure ⟨rfl, fun hb => (hc hb).pop⟩)))

theorem preserves_groupStats (index : Nat) (hc : covers → s.stats.Covers shard.numDocs)
    (hall : ¬ broken → s.stats.Covers shard.numDocs) :
    Preserves (groupStats index) s shard.numDocs covers broken := by
  refine ends_bind (ends_bind (ends_get (ends_orRefused (fun values hv => ?_) fun _ _ => rfl)))
  refine preserves_withBuffers hs (preserves_get (preserves_orBroken hc fun hb => ?_))
  refine exists_sumByGroup? _ ?_
  show values.Covers s.grouping.len
  rw [hs.wellFormed.len_eq]
  exact (hall hb).of_get hv

/-! ### Metrics -/

theorem preserves_createMetric (name : String) (hc : covers → s.stats.Covers shard.numDocs) :
    Preserves (createMetric name) s shard.numDocs covers broken := by
  refine preserves_get (preserves_orRefused fun _ _ => ?_)
  refine ends_bind (ends_onLedger (Memory.ends_claim hs.coherent (fun l _ _ _ => ?_) rfl))
  exact ends_modify ⟨rfl, hc⟩

/-- An update that goes through for counters of the right number. -/
theorem preserves_updateMetric (name : String) {f : Feed → Counters → Call Counters}
    (hc : covers → s.stats.Covers shard.numDocs)
    (hf : ∀ (t : Session) (c : Counters), t.Sound shard config 0 hand → t.grouping = s.grouping →
      t.stats = s.stats → c.size = shard.numDocs →
        Ends (f ⟨shard, config.bufferSize⟩ c) t
          (fun _ u => u.grouping = t.grouping ∧ u.stats = t.stats)
          (OnFailure (fun _ u => u.grouping = t.grouping) broken)) :
    Preserves (updateMetric name f) s shard.numDocs covers broken := by
  refine preserves_get (preserves_orRefused fun c hm => preserves_withBuffers hs ?_)
  refine preserves_bind (hf _ c (hs.withFree 0) rfl rfl (hs.metricNamed hm).size_eq) ?_
  intro c' t _ hstats
  refine ends_modify ⟨rfl, fun hb => ?_⟩
  rw [show t.stats = s.stats from hstats]
  exact hc hb

theorem preserves_addByGroup (name : String) (deltas : List Int)
    (hc : covers → s.stats.Covers shard.numDocs) :
    Preserves (addByGroup name deltas) s shard.numDocs covers broken := by
  refine preserves_updateMetric hs name hc fun t c ht _ _ hsize => ends_bind (ends_get ?_)
  obtain ⟨c', hc'⟩ := Counters.exists_addByGroup? (hsize.trans ht.wellFormed.len_eq.symm)
    (Feed.mk shard config.bufferSize).chunk deltas
  rw [hc']
  exact ends_pure ⟨rfl, rfl⟩

theorem preserves_addByTerm (ha : shard.Ascending) (hchunk : 0 < config.bufferSize)
    (name : String) (conditions : List Condition) (deltas : List Int)
    (hc : covers → s.stats.Covers shard.numDocs) :
    Preserves (addByTerm name conditions deltas) s shard.numDocs covers broken := by
  refine preserves_updateMetric hs name hc fun t c _ _ _ hsize => ?_
  refine ends_bind (ends_orRefused (fun _ _ => ?_) fun _ _ => rfl)
  obtain ⟨c', hc'⟩ := @Counters.exists_addByTerm? _ ⟨shard, config.bufferSize⟩ ha hchunk hsize
    conditions deltas
  rw [hc']
  exact ends_pure ⟨rfl, rfl⟩

theorem preserves_addByGroupAndTerm (ha : shard.Ascending) (hchunk : 0 < config.bufferSize)
    (name : String) (groups : List Nat) (conditions : List Condition) (deltas : List Int)
    (hc : covers → s.stats.Covers shard.numDocs) :
    Preserves (addByGroupAndTerm name groups conditions deltas) s shard.numDocs covers broken := by
  refine preserves_updateMetric hs name hc fun t c ht _ _ hsize => ?_
  refine ends_bind (ends_orRefused (fun _ _ => ?_) fun _ _ => rfl)
  obtain ⟨c', hc'⟩ := @Counters.exists_addByGroupAndTerm? _ _ ⟨shard, config.bufferSize⟩ ha hchunk
    ht.wellFormed hsize (Counters.liveEntries t.grouping.numGroups groups conditions deltas)
    Counters.lt_of_mem_liveEntries
  have hpass : (Pass.scratch (t.grouping.numGroups * 8) fun _ => orBroken
      (c.addByGroupAndTerm? ⟨shard, config.bufferSize⟩ t.grouping
        (Counters.liveEntries t.grouping.numGroups groups conditions deltas))).Completes
      t.grouping (fun _ g' => g' = t.grouping) (fun _ g' => g' = t.grouping) broken := by
    refine Pass.completes_scratch (Pass.completes_orBroken (fun _ _ => rfl) fun hnone => ?_)
      fun _ => rfl
    rw [hc'] at hnone
    cases hnone
  exact ends_bind (ends_get (ends_onGrouping ht hpass))

/-- Commands that are neither regroups nor resets. Only the sums over groups need the values of all
documents. -/
theorem preserves_apply (ha : shard.Ascending) (hchunk : 0 < config.bufferSize) {c : Command}
    (hregroup : c.isRegroup = false) (hreset : c ≠ .reset)
    (hc : covers → s.stats.Covers shard.numDocs)
    (hall : ¬ broken → s.stats.Covers shard.numDocs) :
    Preserves c.apply s shard.numDocs covers broken := by
  cases c with
  | pushStat name => exact preserves_map (preserves_pushStat hs name hc)
  | popStat => exact preserves_map (preserves_popStat hs hc)
  | groupStats stat => exact preserves_map (preserves_groupStats hs stat hc hall)
  | createDynamic name => exact preserves_map (preserves_createMetric hs name hc)
  | updateDynamic name deltas => exact preserves_map (preserves_addByGroup hs name deltas hc)
  | conditionalUpdateDynamic name conditions deltas =>
    exact preserves_map (preserves_addByTerm hs ha hchunk name conditions deltas hc)
  | groupConditionalUpdateDynamic name groups conditions deltas =>
    exact preserves_map (preserves_addByGroupAndTerm hs ha hchunk name groups conditions deltas hc)
  | totalDocFreq intFields stringFields => exact preserves_get (preserves_pure hc _)
  | reset => exact absurd rfl hreset
  | _ => cases hregroup

/-- Requests that are no commands. -/
theorem preserves_other {r : Request} (hr : ∀ c, r ≠ .command c)
    (hc : covers → r.Covering shard.numDocs ∧ s.stats.Covers shard.numDocs)
    (hadm : ¬ broken → r.Admissible s) : Preserves r.apply s shard.numDocs covers broken := by
  have hstats : covers → s.stats.Covers shard.numDocs := fun h => (hc h).2
  cases r with
  | command c => exact absurd rfl (hr c)
  | pushValues name values =>
    exact preserves_map (preserves_pushValues hs name fun h => ⟨(hc h).2, (hc h).1⟩)
  | groupOf doc =>
    refine preserves_map (preserves_get (preserves_orBroken hstats fun hb => ?_))
    exact Grouping.get?_of_lt_len (hadm hb)
  | exportGroups entries =>
    exact preserves_map (preserves_get (preserves_orRefused fun _ _ => preserves_pure hstats _))
  | zeroGroupDocs =>
    refine preserves_map (preserves_get ?_)
    cases s.zeroCount with
    | some n => exact preserves_pure hstats n
    | none => exact ends_bind (ends_modify (ends_pure ⟨rfl, hstats⟩))
  | stat index =>
    refine preserves_map (preserves_get ?_)
    exact ends_orRefused (fun _ _ => ⟨rfl, hstats⟩) fun _ _ => rfl
  | metric name =>
    exact preserves_get (preserves_orRefused fun _ _ => preserves_pure hstats _)

end Stats

/-! ### All requests -/

/-- A call that leaves as many groups as can be counted, and tables that cover the documents if
`covers`; refused, it leaves `left` of the grouping, and it breaks only if `broken`. -/
def Fulfils (x : Call α) (s : Session) (numDocs : Nat) (left : Grouping → Prop)
    (covers broken : Prop) : Prop :=
  Ends x s (fun _ s' => s'.numGroups ≤ maxId ∧ (covers → s'.stats.Covers numDocs))
    (OnFailure (fun _ s' => left s'.grouping) broken)

theorem Concludes.fulfils {x : Call Nat} {f : Nat → α} {numDocs : Nat} {left : Grouping → Prop}
    {broken' : Prop} (h : Concludes x s refused broken') (hbroken : broken' → broken)
    (hleft : ∀ e g', refused e g' → left g') (hc : covers → s.stats.Covers numDocs) :
    Fulfils (f <$> x) s numDocs left covers broken := by
  refine ends_map (Ends.mono h ?_ ?_)
  · rintro n s' ⟨hn, hstats⟩
    refine ⟨hn, fun hcovers => ?_⟩
    rw [hstats]
    exact hc hcovers
  · rintro (e | _) s' he
    · exact hleft e _ he
    · exact hbroken he

theorem Preserves.fulfils {x : Call α} {numDocs : Nat} (h : Preserves x s numDocs covers broken)
    (hn : s.numGroups ≤ maxId) : Fulfils x s numDocs (· = s.grouping) covers broken := by
  refine Ends.mono h ?_ (fun _ _ he => he)
  rintro a s' ⟨hg, hc⟩
  refine ⟨?_, hc⟩
  unfold numGroups
  rw [hg]
  exact hn

/-- The group that a split sends documents to is a result of the deal it is made into. -/
theorem le_of_mem_twoWay {split : Split} {p : Binary64} {x : Nat}
    (hx : x ∈ (Regroup.Deal.twoWay split p).results) : x ≤ split.maxGroup := by
  have hx : x ∈ [split.negative, split.positive] := hx
  unfold Split.maxGroup
  rcases List.mem_pair.mp hx with rfl | rfl <;> omega

theorem concludes_regexBy (hs : s.Sound shard config 1 hand) (ha : shard.Ascending)
    (hn : s.numGroups ≤ maxId) (engine : Regex.Engine) (field pattern : String) (split : Split) :
    Concludes (regexBy engine field pattern split) s (fun _ g' => s.grouping.Grown g')
      (maxId ≤ split.maxGroup) := by
  have hg := Counted.of_sound hs hn
  refine concludes_regroup hs fun _ _ => Pass.completes_bind (Pass.completes_grouping ?_)
  by_cases htwo : 2 < s.grouping.numGroups
  · rw [if_pos htwo]
    exact Pass.completes_bind (Pass.completes_refusal s.grouping.grown_refl)
  · rw [if_neg htwo]
    refine Pass.concludes_unlessFilteredOut hg fun _ => ?_
    cases engine.enclosed? pattern with
    | none => exact Pass.completes_refusal s.grouping.grown_refl
    | some re =>
      refine Regroup.concludes_splitByPostings hg fun list hlist d hd => ?_
      obtain ⟨e, he, rfl⟩ := List.mem_map.mp hlist
      exact (ha.stringPostings field).docs_lt e (List.mem_filter.mp he).1 d hd

theorem concludes_randomMetricMulti (hs : s.Sound shard config 1 hand) (hn : s.numGroups ≤ maxId)
    (stat : Nat) (salt : String) (deal : Regroup.Deal) :
    Concludes (randomMetricMulti stat salt deal) s (fun _ g' => g' = s.grouping)
      ((∃ x ∈ deal.results, maxId ≤ x) ∨
        ∃ values, s.stats.get stat = .ok values ∧ ¬ values.Covers shard.numDocs) := by
  refine concludes_regroup hs fun t ht => ?_
  refine concludes_stat ?_ (fun values hv => ?_) ht
  · exact fun _ _ => rfl
  refine (Regroup.concludes_dealByValues (Counted.of_sound hs hn) values).mono (fun _ _ h => h)
    (fun _ _ h => h) ?_
  rintro (h | h)
  · exact .inl h
  · exact .inr ⟨values, hv, h⟩

theorem concludes_metricFilter (hs : s.Sound shard config 1 hand) (hn : s.numGroups ≤ maxId)
    (stat : Nat) (min max : Int) (negate : Bool) :
    Concludes (metricFilter stat min max negate) s (fun _ g' => g' = s.grouping)
      (∃ values, s.stats.get stat = .ok values ∧ ¬ values.Covers shard.numDocs) := by
  refine concludes_regroup hs fun t ht => ?_
  refine concludes_stat ?_ (fun values hv => ?_) ht
  · exact fun _ _ => rfl
  exact (Regroup.concludes_byRange (Counted.of_sound hs hn) values min max negate).mono
    (fun _ _ h => h) (fun _ _ h => h) fun h => ⟨values, hv, h⟩

theorem fulfils_reset (hs : s.Sound shard config 1 hand)
    (hc : covers → s.stats.Covers shard.numDocs) :
    Fulfils Command.reset.apply s shard.numDocs (· = s.grouping) covers broken := by
  have hreplace : (Pass.replace 1).Completes s.grouping (fun _ g' => g'.numGroups = 2)
      (fun _ g' => g' = s.grouping) broken := Pass.completes_replace rfl
  refine ends_bind (ends_bind ((ends_onGrouping hs hreplace).mono ?_ fun _ _ he => he))
  rintro _ t ⟨ht, hstats⟩
  refine ends_modify (ends_bind (ends_get (ends_pure ⟨?_, fun hcovers => ?_⟩)))
  · show t.grouping.numGroups ≤ maxId
    rw [ht]
    decide
  · show t.stats.Covers shard.numDocs
    rw [hstats]
    exact hc hcovers

/-- A command only breaks if its arguments are not admissible or a value is missing. -/
theorem fulfils_apply (hs : s.Sound shard config 1 hand) (ha : shard.Ascending)
    (hchunk : 0 < config.bufferSize) (hn : s.numGroups ≤ maxId) (c : Command) :
    Fulfils c.apply s shard.numDocs (c.Leaves s.grouping) (s.stats.Covers shard.numDocs)
      (¬ (c.Admissible s.numGroups ∧ s.stats.Covers shard.numDocs)) := by
  have hg := Counted.of_sound hs hn
  have hc : s.stats.Covers shard.numDocs → s.stats.Covers shard.numDocs := id
  cases c with
  | regroupMulti rules errorOnCollisions =>
    refine Concludes.fulfils (concludes_regroup hs fun _ _ =>
      Regroup.concludes_byMultiRules hg ha hchunk rules errorOnCollisions) ?_ (fun _ _ h => h) hc
    rintro (⟨r, hr, h⟩ | h) ⟨hadm, -⟩
    · exact absurd (hadm.1 r hr) (Nat.not_lt_of_le h)
    · exact absurd hadm.2 (Nat.not_lt_of_le h)
  | regroupRules rules =>
    refine Concludes.fulfils (concludes_regroup hs fun _ _ =>
      Regroup.concludes_byRules hg ha rules) ?_ (fun _ _ h => h) hc
    rintro ⟨r, hr, h⟩ ⟨hadm, -⟩
    exact absurd (hadm r hr) (Nat.not_lt_of_le h)
  | intOr field terms split =>
    exact Concludes.fulfils (concludes_regroup hs fun _ _ =>
      Regroup.concludes_splitByAny hg (ha.intPostings field) terms split)
      (fun h hadm => absurd hadm.1 (Nat.not_lt_of_le h)) (fun _ _ h => h) hc
  | stringOr field terms split =>
    exact Concludes.fulfils (concludes_regroup hs fun _ _ =>
      Regroup.concludes_splitByAny hg (ha.stringPostings field) terms split)
      (fun h hadm => absurd hadm.1 (Nat.not_lt_of_le h)) (fun _ _ h => h) hc
  | regex field pattern split =>
    exact (concludes_regexBy hs ha hn .standard field pattern split).fulfils
      (fun h hadm => absurd hadm.1 (Nat.not_lt_of_le h)) (fun _ _ h => h) hc
  | query rule =>
    exact Concludes.fulfils (concludes_regroup hs fun _ _ =>
      Regroup.concludes_splitByQuery hg ha rule)
      (fun h hadm => absurd hadm.1 (Nat.not_lt_of_le h)) (fun _ _ h => h) hc
  | random field isInt salt p split =>
    refine Concludes.fulfils (concludes_regroup hs fun _ _ => Regroup.concludes_dealByPostings hg
      (@Regroup.lt_numDocs_of_mem_hashedPostings _ shard ha field isInt)
      (Regroup.Deal.negative_mem_twoWay split p)) ?_ (fun _ _ h => h) hc
    rintro ⟨x, hx, h⟩ ⟨hadm, -⟩
    exact absurd hadm (Nat.not_lt_of_le (Nat.le_trans h (le_of_mem_twoWay hx)))
  | randomMulti field isInt salt deal =>
    refine Concludes.fulfils (concludes_regroup hs fun _ _ => Regroup.concludes_dealByPostings hg
      (@Regroup.lt_numDocs_of_mem_hashedPostings _ shard ha field isInt) nofun) ?_
      (fun _ _ h => h) hc
    rintro ⟨x, hx, h⟩ ⟨hadm, -⟩
    exact absurd (hadm x hx) (Nat.not_lt_of_le h)
  | randomMetric stat salt p split =>
    refine (concludes_randomMetricMulti hs hn stat salt _).fulfils ?_ (fun _ _ h => h) hc
    rintro (⟨x, hx, h⟩ | h) ⟨hadm, hcov⟩
    · exact absurd hadm (Nat.not_lt_of_le (Nat.le_trans h (le_of_mem_twoWay hx)))
    · exact hcov.not_missing h
  | randomMetricMulti stat salt deal =>
    refine (concludes_randomMetricMulti hs hn stat salt deal).fulfils ?_ (fun _ _ h => h) hc
    rintro (⟨x, hx, h⟩ | h) ⟨hadm, hcov⟩
    · exact absurd (hadm x hx) (Nat.not_lt_of_le h)
    · exact hcov.not_missing h
  | metric stat min max interval noGutters =>
    refine (concludes_metric hs hn stat min max interval noGutters).fulfils ?_
      (fun _ _ h => h.2) hc
    rintro (h | ⟨b, hb, h⟩) ⟨hadm, hcov⟩
    · exact hcov.not_missing h
    · exact absurd (hadm b hb) (Nat.not_lt_of_le h.ge)
  | metric2d x y =>
    refine (concludes_metric2d hs hn x y).fulfils ?_ (fun _ _ h => h.2) hc
    rintro (⟨index, -, h⟩ | ⟨a, b, hx, hy, h⟩) ⟨hadm, hcov⟩
    · exact hcov.not_missing h
    · exact absurd (hadm a b hx hy) (Nat.not_lt_of_le h.ge)
  | metricFilter stat min max negate =>
    refine (concludes_metricFilter hs hn stat min max negate).fulfils ?_ (fun _ _ h => h) hc
    rintro h ⟨-, hcov⟩
    exact hcov.not_missing h
  | remap sources destinations onlyRemapped =>
    refine Concludes.fulfils (concludes_regroup hs fun _ _ =>
      Regroup.concludes_byRemap hg sources destinations onlyRemapped) ?_ (fun _ _ h => h) hc
    rintro ⟨x, hx, h⟩ ⟨hadm, -⟩
    exact absurd (hadm x hx) (Nat.not_lt_of_le h)
  | reset => exact fulfils_reset hs hc
  | _ =>
    -- the other commands leave the groups alone, so only a missing value breaks them
    refine Preserves.fulfils (preserves_apply hs ha hchunk ?_ ?_ hc fun hb => ?_) hn
    · rfl
    · exact nofun
    · exact (not_not.mp hb).2

/-- So does a request. -/
theorem fulfils_request (hs : s.Sound shard config 1 hand) (ha : shard.Ascending)
    (hchunk : 0 < config.bufferSize) (hn : s.numGroups ≤ maxId) (r : Request) :
    Fulfils r.apply s shard.numDocs (r.Leaves s.grouping)
      (r.Covering shard.numDocs ∧ s.stats.Covers shard.numDocs)
      (¬ (r.Admissible s ∧ s.stats.Covers shard.numDocs)) := by
  have hc : r.Covering shard.numDocs ∧ s.stats.Covers shard.numDocs →
      s.stats.Covers shard.numDocs := And.right
  cases r with
  | command c =>
    refine ends_map ((fulfils_apply hs ha hchunk hn c).mono ?_ fun _ _ he => he)
    exact fun _ _ ⟨hn, h⟩ => ⟨hn, fun hcovers => h (hc hcovers)⟩
  | _ =>
    refine Preserves.fulfils (preserves_other hs ?_ id fun hb => (not_not.mp hb).1) hn
    exact nofun

end Call

/-! ### New sessions -/

namespace Session

variable {shard : Shard} {config : Config} {l : Memory.Ledger} {s : Session}

theorem numGroups_start (h : start shard l config = .ok s) : s.numGroups ≤ maxId := by
  unfold numGroups
  rw [(start_ok h).1]
  show 2 ≤ maxId
  decide

theorem covers_start (h : start shard l config = .ok s) : s.stats.Covers shard.numDocs := by
  rw [(start_ok h).2.1]
  exact fun _ hx => nomatch hx

end Session

end Cohort
