import Cohort.Proofs.Session.Conclusions
import Cohort.Proofs.Session.Guarantees

/-!
# Progress — what keeps a run going, and what a refusal costs

The number of groups of a reachable session is always a group id. From it follows what a refused
request leaves claimed, how bucketing by stats may end, and that a run of admissible requests never
meets a broken check. Rules with as many conditions as there are ids are not admissible: `crowd` is
one that breaks a check.
-/

namespace Cohort

namespace Live

variable {shard : Shard} {config : Config} {x : Live} {r : Request} {s' : Session}

/-- However a session was reached, its groups can be counted. -/
theorem Reachable.numGroups_le (h : Reachable shard config x) (hb : shard.Built) :
    x.session.numGroups ≤ maxId := by
  induction h with
  | start _ h => exact Session.numGroups_start h
  | step hx hstep ih =>
    cases hstep with
    | @answered r a s' hr =>
      exact ((Call.fulfils_request hx.sound hb.ascending hx.bufferSize_pos ih r).ok_of hr).1
    | @refused r e s' hr =>
      obtain ⟨-, hk⟩ := (Session.serves_request hx.sound r).err_of hr
      exact hk.numGroups_eq ▸ ih
    | claimed => exact ih
    | released => exact ih
    | elsewhere => exact ih

theorem Reachable.counted (h : Reachable shard config x) (hb : shard.Built) :
    x.session.grouping.Counted shard.numDocs :=
  Call.Counted.of_sound h.sound (h.numGroups_le hb)

/-! ### Refusals -/

/-- A refused request keeps claimed just what it widened the grouping by. Most leave the grouping as
it was; those regroups that claim something after making room may leave it with that room. -/
theorem Reachable.refused_leaves (h : Reachable shard config x) (hb : shard.Built) {e : Error}
    (hr : r.apply x.session = .error (.refused e) s') :
    s'.ledger.used + x.session.grouping.bytes = x.session.ledger.used + s'.grouping.bytes ∧
    r.Leaves x.session.grouping s'.grouping ∧ x.session.grouping.Grown s'.grouping := by
  have hs := h.sound
  obtain ⟨hs', hk⟩ := (Session.serves_request hs r).err_of hr
  have hleft : r.Leaves x.session.grouping s'.grouping :=
    (Call.fulfils_request hs hb.ascending h.bufferSize_pos (h.numGroups_le hb) r).err_of hr
  refine ⟨?_, hleft, ?_⟩
  · have h1 := hs.used_eq
    have h2 := hs'.used_eq
    unfold Session.heldBytes at h1 h2
    rw [hs.buffers_eq] at h1
    rw [hs'.buffers_eq, hk.stats_eq, hk.metrics_eq] at h2
    omega
  · cases r with
    | command c => exact hleft.grown
    | _ => exact .inl hleft

/-- The grouping was widened, but there was no room for the set of moved documents. -/
theorem Reachable.refused_leaves_widened : ∃ s',
    s'.ledger.used = 35 ∧ (opened 36).ledger.used = 32 ∧
    (Request.command (.intOr "age" [20] ⟨1, 1, 2⟩)).apply (opened 36) =
      .error (.refused (.outOfMemory ⟨8, 1⟩)) s' ∧
    s'.ledger.used + (opened 36).grouping.bytes = (opened 36).ledger.used + s'.grouping.bytes := by
  have h : Reachable ages narrow ⟨opened 36, 0⟩ :=
    .start (Memory.Ledger.coherent_fresh 36 none) rfl
  have hr : (Request.command (.intOr "age" [20] ⟨1, 1, 2⟩)).apply (opened 36) =
      .error (.refused (.outOfMemory ⟨8, 1⟩)) { opened 36 with
        ledger := ⟨⟨36, 35, 35⟩, none⟩
        grouping := .stored ⟨.byte, 2, 2, #[1, 1, 1]⟩ } := by
    cbv
  exact ⟨_, rfl, rfl, hr, (Reachable.refused_leaves h built_ages hr).1⟩

/-! ### Bucketing by stats -/

/-- Where the check on the composed groups holds, every value has a bucket, and every group and
bucket are composed, without wrapping around, to a group up to the highest. -/
theorem exists_composed {numGroups highest : Nat} {b : IntervalBuckets} (hb : b.Proper)
    (hn : 1 < numGroups) (h : highestComposed numGroups b.total = .ok highest) (value : Int) :
    ∃ bucket, b.bucket? value = some bucket ∧ bucket ≤ b.total ∧ b.total ≤ maxId ∧
      ∀ group < numGroups, compose? group bucket b.total =
        some (composition group bucket b.total) ∧ composition group bucket b.total ≤ highest := by
  obtain ⟨rfl, hmax⟩ := highestComposed_ok h
  have htotal := total_le_maxId hn hmax
  obtain ⟨bucket, hbucket⟩ := IntervalBuckets.exists_bucket? htotal value
  have hle := hb.bucket?_le_total hbucket
  refine ⟨bucket, hbucket, hle, htotal, fun group hgroup => ?_⟩
  have hgroup : group ≤ numGroups - 1 := by omega
  exact ⟨compose?_eq hgroup hle hmax, composition_le hgroup hle⟩

/-- Bucketing documents by stats that all of them have succeeds, or is refused for a bad argument or
for want of memory. It only breaks where the check on the groups lets the largest id pass, which
leaves no id for the number of groups. Where the check holds, all buckets, composed groups and cells
are worked out, and none exceeds the highest, which is a group id. -/
theorem Reachable.bucketing (h : Reachable shard config x) (hb : shard.Built) :
    (∀ (stat : Nat) (min max width : Int) (noGutters : Bool),
      (∀ values, x.session.stats.get stat = .ok values → values.Covers shard.numDocs) →
      (∃ n s', Session.metric stat min max width noGutters x.session = .ok n s') ∨
      (∃ e s', Session.metric stat min max width noGutters x.session = .error (.refused e) s' ∧
        e.IsArgumentOrMemory) ∨
      ((∃ s', Session.metric stat min max width noGutters x.session = .error .broken s') ∧
        ∃ b, IntervalBuckets.make min max width noGutters = .ok b ∧
          (x.session.numGroups - 1) * b.total = maxId)) ∧
    (∀ a b : Session.AxisRange,
      (∀ values, x.session.stats.get a.stat = .ok values → values.Covers shard.numDocs) →
      (∀ values, x.session.stats.get b.stat = .ok values → values.Covers shard.numDocs) →
      (∃ n s', Session.metric2d a b x.session = .ok n s') ∨
      (∃ e s', Session.metric2d a b x.session = .error (.refused e) s' ∧ e.IsArgumentOrMemory) ∨
      ((∃ s', Session.metric2d a b x.session = .error .broken s') ∧
        ∃ i j, Axis.make "x" a.min a.max a.width = .ok i ∧
          Axis.make "y" b.min b.max b.width = .ok j ∧ i.count * j.count = maxId)) ∧
    (∀ (min max width : Int) (noGutters : Bool) (b : IntervalBuckets) (highest : Nat),
      IntervalBuckets.make min max width noGutters = .ok b → 1 < x.session.numGroups →
      highestComposed x.session.numGroups b.total = .ok highest → highest ≤ maxId ∧
        ∀ value, ∃ bucket, b.bucket? value = some bucket ∧ bucket ≤ b.total ∧ b.total ≤ maxId ∧
          ∀ group < x.session.numGroups, compose? group bucket b.total =
            some (composition group bucket b.total) ∧
              composition group bucket b.total ≤ highest) ∧
    (∀ (a b : Session.AxisRange) (i j : Axis) (highest : Nat),
      Axis.make "x" a.min a.max a.width = .ok i → Axis.make "y" b.min b.max b.width = .ok j →
      (Grid.mk i j).maxGroup = .ok highest → highest ≤ maxId ∧
        ∀ vx vy, ∃ cell, (Grid.mk i j).cell? vx vy = some cell ∧ cell ≤ highest) := by
  have hn := h.numGroups_le hb
  refine ⟨?_, ?_, ?_, ?_⟩
  · intro stat min max width noGutters hc
    rcases (Call.concludes_metric h.sound hn stat min max width noGutters).outcome with
      hok | ⟨e, s', he, harg, -⟩ | ⟨hrun, ⟨values, hv, hnot⟩ | hbound⟩
    · exact .inl hok
    · exact .inr (.inl ⟨e, s', he, harg⟩)
    · exact absurd (hc values hv) hnot
    · exact .inr (.inr ⟨hrun, hbound⟩)
  · intro a b ha hc
    rcases (Call.concludes_metric2d h.sound hn a b).outcome with
      hok | ⟨e, s', he, harg, -⟩ | ⟨hrun, ⟨index, hindex, values, hv, hnot⟩ | hbound⟩
    · exact .inl hok
    · exact .inr (.inl ⟨e, s', he, harg⟩)
    · rcases List.mem_pair.mp hindex with rfl | rfl
      · exact absurd (ha values hv) hnot
      · exact absurd (hc values hv) hnot
    · exact .inr (.inr ⟨hrun, hbound⟩)
  · intro min max width noGutters b highest hmake hgroups hh
    refine ⟨(highestComposed_ok hh).2, fun value => ?_⟩
    exact exists_composed (IntervalBuckets.proper_of_make hmake) hgroups hh value
  · intro a b i j highest hi hj hh
    obtain ⟨rfl, hmax⟩ := Grid.maxGroup_ok hh
    have hx := Axis.proper_of_make hi
    have hy := Axis.proper_of_make hj
    refine ⟨hmax, fun vx vy => ?_⟩
    obtain ⟨cell, hcell⟩ := Grid.exists_cell? (g := ⟨i, j⟩) hx hy hmax vx vy
    exact ⟨cell, hcell, Grid.cell?_le_total hx hy hcell⟩

/-- A session over `ages` with a stat that is the same for all documents. -/
def topped : Session :=
  { opened 1000 with stats := ⟨#[⟨"top", .constant 4294967293⟩], 64⟩ }

theorem reachable_topped : Reachable ages narrow ⟨topped, 0⟩ := by
  refine .step reachable_opened (.answered (r := .pushValues "top" (.constant 4294967293))
    (a := .outcome (.statDepth 1)) ?_)
  cbv

/-- As many buckets as there are ids: the only group left would be the largest one. -/
theorem metric_topped : Session.metric 0 0 4294967293 1 false topped =
    .error .broken { topped with grouping := .constant 4294967295 3 } := by
  cbv

theorem Reachable.bucketing_topped :
    (∃ s', Session.metric 0 0 4294967293 1 false topped = .error .broken s') ∧
    ∃ b, IntervalBuckets.make 0 4294967293 1 false = .ok b ∧
      (topped.numGroups - 1) * b.total = maxId := by
  have hcovers : ∀ values, topped.stats.get 0 = .ok values → values.Covers ages.numDocs := by
    intro values hv
    cases hv
    trivial
  rcases (Reachable.bucketing reachable_topped built_ages).1 0 0 4294967293 1 false hcovers with
    ⟨n, s', hok⟩ | ⟨e, s', he, -⟩ | hbroken
  · have hok : Session.metric 0 0 4294967293 1 false topped = .ok n s' := hok
    rw [metric_topped] at hok
    cases hok
  · have he : Session.metric 0 0 4294967293 1 false topped = .error (.refused e) s' := he
    rw [metric_topped] at he
    cases he
  · exact hbroken

/-! ### Admitted runs -/

/-- The sessions of a shard that a run of admissible requests leads to. -/
inductive Admitted (shard : Shard) (config : Config) : Live → Prop
  | start {l : Memory.Ledger} {s : Session} (hl : l.Coherent)
      (h : Session.start shard l config = .ok s) : Admitted shard config ⟨s, l.used⟩
  | answered {x : Live} {r : Request} {a : Answer} {s' : Session} (hx : Admitted shard config x)
      (hr : r.Admissible x.session) (h : r.apply x.session = .ok a s') :
      Admitted shard config ⟨s', x.hand⟩
  | refused {x : Live} {r : Request} {e : Error} {s' : Session} (hx : Admitted shard config x)
      (hr : r.Admissible x.session) (h : r.apply x.session = .error (.refused e) s') :
      Admitted shard config ⟨s', x.hand⟩

theorem Admitted.reachable (h : Admitted shard config x) : Reachable shard config x := by
  induction h with
  | start hl h => exact .start hl h
  | answered _ _ h ih => exact .step ih (.answered h)
  | refused _ _ h ih => exact .step ih (.refused h)

/-- All tables on the stack have a value for every document. -/
theorem Admitted.covers (h : Admitted shard config x) (hb : shard.Built) :
    x.session.stats.Covers shard.numDocs := by
  induction h with
  | start _ h => exact Session.covers_start h
  | @answered x r a s' hx hr h ih =>
    have hreach := hx.reachable
    have hdone := Call.fulfils_request hreach.sound hb.ascending hreach.bufferSize_pos
      (hreach.numGroups_le hb) r
    have hlen : x.session.numDocs = shard.numDocs := hreach.sound.wellFormed.len_eq
    exact (hdone.ok_of h).2 ⟨hlen ▸ hr.covering, ih⟩
  | @refused x r e s' hx hr h ih =>
    obtain ⟨-, hk⟩ := (Session.serves_request hx.reachable.sound r).err_of h
    rw [show s'.stats = x.session.stats from hk.stats_eq]
    exact ih

/-- Asks for an age up to 10, `n` times over. -/
def crowd (n : Nat) : MultiRule := ⟨1, 1, .replicate n 2, .replicate n ⟨"age", .int 10, true⟩⟩

theorem maxGroup_crowd (n : Nat) : (crowd (n + 1)).maxGroup = 2 := by
  have hmax : (List.replicate n 2).foldl max 2 = 2 := by
    induction n with
    | zero => rfl
    | succ n ih => exact ih
  exact hmax

theorem conditionCountOf_crowd {n : Nat} (hn : n ≤ maxId) :
    MultiRule.conditionCountOf [crowd n] = n := by
  show (List.replicate n _).length % halfWordBound + 0 = n
  rw [List.length_replicate, Nat.add_zero, mod_halfWordBound hn]

theorem checkMultiRules_crowd (n : Nat) : Regroup.checkMultiRules [crowd (n + 1)] = .ok 1 := by
  have htargets : MultiRule.checkTargets [crowd (n + 1)] = .ok 1 := by
    simp [MultiRule.checkTargets, MultiRule.checkTargetsFrom, crowd, require]
    rfl
  unfold Regroup.checkMultiRules
  rw [htargets]
  rfl

theorem isIdentityList_crowd (n m : Nat) :
    MultiRule.isIdentityList [crowd (n + 1)] m = (m == 1) := by
  have htarget : (crowd (n + 1)).target = 1 := rfl
  have hid : (crowd (n + 1)).isIdentity = false := rfl
  unfold MultiRule.isIdentityList
  by_cases hm : 1 < m
  · simp [htarget, hid, hm]
    omega
  · simp [htarget, hm, eq_comm]

/-- One condition for every id leaves no number for a document that none of them holds of. -/
theorem regroupMulti_crowd {n : Nat} (hn : n + 1 = maxId) :
    ∃ s', Session.regroupMulti [crowd (n + 1)] false (opened (wordBound - 1)) =
      .error .broken s' := by
  have hcount : MultiRule.conditionCountOf [crowd (n + 1)] = maxId :=
    (conditionCountOf_crowd (Nat.le_of_eq hn)).trans hn
  have hmax : MultiRule.maxGroupOf [crowd (n + 1)] = 2 := congrArg (max 0) (maxGroup_crowd n)
  unfold Session.regroupMulti Regroup.byMultiRules
  simp only [hcount, hmax, checkMultiRules_crowd, isIdentityList_crowd, MultiRule.workBytes,
    Regroup.Partition.untouched, List.isEmpty_cons, List.length_singleton]
  exact ⟨_, rfl⟩

end Live

end Cohort
