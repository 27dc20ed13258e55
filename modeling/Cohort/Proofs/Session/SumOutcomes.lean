import Cohort.Proofs.Session.Conclusions
import Cohort.Proofs.Session.Sums
import Cohort.Proofs.Session.ValueOutcomes

/-!
# Outcomes of sums — what a stat adds up to, and what becomes of it when groups are bucketed

A sum is taken of every group over just its documents. Buckets with gutters subdivide the groups:
no document is lost or joins those of another group, whichever shortcut is taken, so what the parts
of a group add up to is its old sum.
-/

namespace Cohort

/-! ### Buckets with gutters -/

namespace IntervalBuckets

variable {b : IntervalBuckets} {v lo hi : Int} {i : Nat}

/-- With gutters no value is in bucket 0. -/
theorem bucket?_pos (hgutters : b.noGutters = false) (h : b.bucket? v = some i) : 0 < i := by
  have hnot : ¬ b.noGutters = true := by rw [hgutters]; exact Bool.false_ne_true
  unfold bucket? at h
  split_ifs at h
  · rw [below?_eq_some h, if_neg hnot]
    exact Nat.succ_pos _
  · rw [above?_eq_some h, if_neg hnot]
    exact Nat.succ_pos _
  · cases h
    exact Nat.succ_pos _

/-- A span with a common bucket is not empty, so it is in that of its first value. -/
theorem Proper.bucket?_first_of_common? (hb : b.Proper) (h : b.common? lo hi = some (some i)) :
    b.bucket? lo = some i := by
  by_cases hle : lo ≤ hi
  · exact hb.bucket?_of_common? h (Int.le_refl lo) hle
  · unfold common? at h
    rw [if_pos (Int.not_le.mp hle)] at h
    cases h

theorem total_pos (hgutters : b.noGutters = false) : 0 < b.total := by
  unfold total
  rw [hgutters]
  exact Nat.succ_pos _

end IntervalBuckets

namespace Regroup

open Pass

variable {feed : Feed} {g : Grouping} {numDocs : Nat}

/-- Buckets with gutters that go through subdivide all groups, whatever values there are. -/
theorem subdivides_byBuckets (hg : g.WellFormed numDocs) (values : ValueTable)
    {buckets : IntervalBuckets} (hb : buckets.Proper) (hgutters : buckets.noGutters = false) :
    Ensures (byBuckets feed values buckets) g (fun _ g' => g.Subdivides buckets.total g')
      (fun _ g' => g.Unmoved numDocs g') := by
  refine ensures_unlessFilteredOut (fun hn d x hx => ?_) fun hn => ?_
  · have hlt := hg.lt_numGroups d x hx
    obtain rfl : x = 0 := by omega
    exact ⟨1, Nat.one_pos, IntervalBuckets.total_pos hgutters, hx⟩
  refine ensures_bind (ensures_orRefused (fun highest hh => ?_) fun _ => hg.unmoved)
  refine ensures_bind (ensures_orBroken fun common hcommon => ?_)
  obtain ⟨rfl, hmax⟩ := highestComposed_ok hh
  cases common with
  | some bucket =>
    have hle := hb.common?_le_total hcommon
    have hpos := IntervalBuckets.bucket?_pos hgutters (hb.bucket?_first_of_common? hcommon)
    refine Ensures.mono (sends_toOneBucket hg hle hmax) fun _ _ hs d x hx => ?_
    exact ⟨bucket, hpos, hle, hs.follows d x _ hx (compose?_eq (hg.le_top hx) hle hmax)⟩
  | none =>
    refine ensures_bind (ensures_makeRoom hg.len_le ?_ fun _ => hg.unmoved)
    -- a composed group comes from the bucket of a value that was read
    have hcomposed : ∀ d x y, g.get? d = some x →
        ((values.value? d).bind fun v => (buckets.bucket? v).bind fun bucket =>
          compose? x bucket buckets.total) = some y →
        ∃ k, 0 < k ∧ k ≤ buckets.total ∧ y = composition x k buckets.total := by
      intro d x y hx hy
      obtain ⟨v, -, hy⟩ := Option.bind_eq_some_iff.mp hy
      obtain ⟨bucket, hbucket, hy⟩ := Option.bind_eq_some_iff.mp hy
      have hle := hb.bucket?_le_total hbucket
      rw [compose?_eq (hg.le_top hx) hle hmax] at hy
      cases hy
      exact ⟨bucket, IntervalBuckets.bucket?_pos hgutters hbucket, hle, rfl⟩
    refine ensures_rewrite (hg.toRoomy.roomFor _) (fun g' hg' => ?_) fun g1 g' hg1 _ hget d x hx => ?_
    · refine (Grouping.moves_of_mapGroupsWithValues? hg').overwrites fun d x y hx hy => .inr ?_
      rw [Grouping.get?_roomFor] at hx
      obtain ⟨k, -, hle, rfl⟩ := hcomposed d x y hx hy
      exact Grouping.le_capacity_roomFor _ (composition_le (hg.le_top hx) hle)
    · obtain ⟨y, hy, hmoved⟩ := (Grouping.moves_of_mapGroupsWithValues? hg1).exists_moved
        ((Grouping.get?_roomFor g _ d).trans hx)
      obtain ⟨k, hpos, hle, rfl⟩ := hcomposed d x y hx hy
      exact ⟨k, hpos, hle, (hget d).trans hmoved⟩

end Regroup

/-! ### Sessions -/

/-- The sums of a stat with a value for every document can be taken. -/
theorem Session.Sound.exists_groupStats {shard : Shard} {config : Config} {s : Session}
    {hand stat : Nat} {values : ValueTable} (hs : s.Sound shard config 1 hand)
    (hstat : s.stats.get stat = .ok values) (hcovers : values.Covers shard.numDocs) :
    ∃ sums t, groupStats stat s = .ok sums t ∧ Sums s.grouping values sums := by
  have hcovers : values.Covers s.grouping.len := hs.wellFormed.len_eq.symm ▸ hcovers
  obtain ⟨sums, hsums, hall⟩ := exists_sums config.bufferSize hcovers
  have hends : Ends (groupStats stat) s (fun a _ => Sums s.grouping values a)
      fun _ _ => False := by
    refine ends_bind (ends_bind (ends_get ?_))
    rw [hstat]
    refine ends_pure (Call.ends_withBuffers hs (ends_bind (ends_get ?_)))
    show Ends (orBroken (sumByGroup? s.grouping config.bufferSize values)) _ _ _
    rw [hsums]
    exact ends_pure hall
  exact hends.exists_ok

namespace Live

variable {shard : Shard} {config : Config} {x : Live} {s' : Session} {n : Nat}

/-- Buckets with gutters subdivide the groups of a session and leave its stats alone. -/
theorem Reachable.metric_subdivides (h : Reachable shard config x) {stat : Nat}
    {min max width : Int} (hr : Session.metric stat min max width false x.session = .ok n s') :
    ∃ b, IntervalBuckets.make min max width false = .ok b ∧
      x.session.grouping.Subdivides b.total s'.grouping ∧ s'.stats = x.session.stats := by
  have hg := h.sound.wellFormed
  have hpass : ∀ t : Session, t.stats = x.session.stats →
      Pass.Completes (orRefused (t.stats.get stat) >>= fun values =>
        orRefused (IntervalBuckets.make min max width false) >>= fun buckets =>
          Regroup.byBuckets ⟨shard, config.bufferSize⟩ values buckets) x.session.grouping
        (fun _ g' => ∃ b, IntervalBuckets.make min max width false = .ok b ∧
          x.session.grouping.Subdivides b.total g')
        (fun _ g' => x.session.grouping.Unmoved shard.numDocs g') True := by
    intro t _
    refine Pass.ensures_iff.mp ?_
    refine Pass.ensures_bind (Pass.ensures_orRefused (fun values _ => ?_) fun _ => hg.unmoved)
    refine Pass.ensures_bind (Pass.ensures_orRefused (fun b hb => ?_) fun _ => hg.unmoved)
    obtain ⟨-, -, rfl⟩ := IntervalBuckets.make_ok hb
    exact (Regroup.subdivides_byBuckets hg values (IntervalBuckets.proper_of_make hb) rfl).mono
      fun _ _ hsub => ⟨_, hb, hsub⟩
  have hends : Ends (Session.metric stat min max width false) x.session _ _ :=
    Call.ends_regroup_of_completes h.sound fun t ht => hpass t ht
  obtain ⟨⟨b, hb, hsub⟩, hstats⟩ := hends.ok_of hr
  exact ⟨b, hb, hsub, hstats⟩

/-- The sums of a stat with a value for every document are one for every group: 0 for group 0, and
otherwise the values of just the group's documents, added up modulo `2 ^ 64`; together they are the
values of all documents outside group 0. After buckets with gutters, by any stat, the documents of a
group are those of its parts, and the new sums of the parts add up to the old sum of the group. -/
theorem Reachable.sums_meaning (h : Reachable shard config x) {stat : Nat} {values : ValueTable}
    (hstat : x.session.stats.get stat = .ok values) (hcovers : values.Covers shard.numDocs) :
    ∃ sums t, Session.groupStats stat x.session = .ok sums t ∧
      sums.length = x.session.numGroups ∧ sums[0]? = some 0 ∧
      (∀ g, 1 ≤ g → g < x.session.numGroups →
        sums[g]? = some (wrap64 (∑ d ∈ x.session.grouping.docsIn g, values.valueOf d))) ∧
      wrap64 sums.sum = wrap64 (∑ d ∈ Finset.range shard.numDocs with
        x.session.grouping.get? d ≠ some 0, values.valueOf d) ∧
      ∀ (bucketed : Nat) (min max width : Int) (n : Nat) (s' : Session),
        Session.metric bucketed min max width false x.session = .ok n s' →
        ∃ b, IntervalBuckets.make min max width false = .ok b ∧
          ∃ sums' t', Session.groupStats stat s' = .ok sums' t' ∧
            sums'.length = s'.numGroups ∧
            ∀ g, 1 ≤ g → g < x.session.numGroups →
              (∀ d, x.session.grouping.get? d = some g ↔
                ∃ y ∈ Finset.Ioc ((g - 1) * b.total) (g * b.total),
                  s'.grouping.get? d = some y) ∧
              sums[g]? = some (wrap64
                (∑ y ∈ Finset.Ioc ((g - 1) * b.total) (g * b.total), sums'.getD y 0)) := by
  have hg := h.sound.wellFormed
  obtain ⟨sums, t, hrun, hsums⟩ := h.sound.exists_groupStats hstat hcovers
  refine ⟨sums, t, hrun, hsums.length_eq, hsums.zero hg.numGroups_pos, hsums.total,
    hsums.wrap64_sum_eq hg, ?_⟩
  intro bucketed min max width n s' hr
  obtain ⟨b, hb, hsub, hstats⟩ := h.metric_subdivides hr
  have hs' := ((Session.serves_metric h.sound bucketed min max width false).ok_of hr).1
  obtain ⟨sums', t', hrun', hsums'⟩ := hs'.exists_groupStats (hstats.symm ▸ hstat) hcovers
  refine ⟨b, hb, sums', t', hrun', hsums'.length_eq, fun g hpos hlt => ⟨fun d => ?_, ?_⟩⟩
  · exact hsub.mem_parts_iff (hs'.wellFormed.len_eq.trans hg.len_eq.symm) hpos
  · have hadd := hsub.sums_eq hg hs'.wellFormed hsums hsums' hpos
    rw [hsums.getD_eq hg hpos] at hadd
    rw [hsums.total g hpos hlt]
    exact congrArg some hadd.symm

/-- Documents 1 and 2 of group 2 are 35 and 22 away. Apart in two of the groups 5 to 8, they still
add up to 57. -/
theorem Reachable.sums_meaning_rated : ∃ sums t n s' sums' t',
    Session.groupStats 2 rated = .ok sums t ∧ sums[2]? = some 57 ∧ wrap64 sums.sum = 57 ∧
    Session.metric 2 10 30 10 false rated = .ok n s' ∧
    Session.groupStats 2 s' = .ok sums' t' ∧
    (s'.grouping.get? 1 = some 8 ∧ s'.grouping.get? 2 = some 6) ∧
    wrap64 (∑ y ∈ Finset.Ioc 4 8, sums'.getD y 0) = 57 := by
  obtain ⟨n, s', hr, hfirst, hsecond⟩ : ∃ n s', Session.metric 2 10 30 10 false rated = .ok n s' ∧
      s'.grouping.get? 1 = some 8 ∧ s'.grouping.get? 2 = some 6 := ⟨_, _, by cbv, rfl, rfl⟩
  obtain ⟨sums, t, hrun, -, -, htotal, hall, hparts⟩ := Reachable.sums_meaning reachable_rated
    (show rated.stats.get 2 = .ok (.dense #[5, 35, 22]) from rfl) (by decide)
  obtain ⟨b, hb, sums', t', hrun', -, hgroup⟩ := hparts 2 10 30 10 n s' hr
  cases hb
  have hold : sums[2]? = some 57 := htotal 2 (by decide) (by decide)
  have hnew := (hgroup 2 (by decide) (by decide)).2
  exact ⟨sums, t, n, s', sums', t', hrun, hold, hall.trans (by decide), hr, hrun',
    ⟨hfirst, hsecond⟩, Option.some.inj (hnew.symm.trans hold)⟩

end Live

end Cohort
