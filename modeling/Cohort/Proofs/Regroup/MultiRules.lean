import Cohort.Proofs.Grouping.Pass
import Cohort.Proofs.Meaning
import Cohort.Proofs.Regroup.Partition

/-!
# Multi-condition rules — every document goes where its rule sends it

Once all fields are swept, the smallest number that was offered to a document is that of the first
condition of its rule that it satisfies. The last pass turns it into the positive group of that
condition. With its two shortcuts, for no rules and for rules that keep all groups, a regroup by
rules is what the rules mean document by document.
-/

namespace Cohort.Regroup

open Grouping (Overwrites)
open MultiRule (Checked)

variable {feed : Feed} {g g' : Grouping} {rules : List MultiRule} {errorOnCollisions : Bool}
  {p : Partition}

/-! ### Bounds -/

theorem maxGroup_le_maxGroupOf {r : MultiRule} (hr : r ∈ rules) :
    r.maxGroup ≤ MultiRule.maxGroupOf rules :=
  le_foldl_max 0 (List.mem_map_of_mem hr)

theorem negative_le_maxGroupOf {r : MultiRule} (hr : r ∈ rules) :
    r.negative ≤ MultiRule.maxGroupOf rules :=
  Nat.le_trans (foldl_max_le_iff.mp (Nat.le_refl r.maxGroup)).1 (maxGroup_le_maxGroupOf hr)

theorem positive_le_maxGroupOf {x : Nat} (hx : x ∈ 0 :: rules.flatMap (·.positives)) :
    x ≤ MultiRule.maxGroupOf rules := by
  rcases List.mem_cons.mp hx with rfl | hx
  · exact Nat.zero_le _
  · obtain ⟨r, hr, hx⟩ := List.mem_flatMap.mp hx
    exact Nat.le_trans (le_foldl_max r.negative hx) (maxGroup_le_maxGroupOf hr)

/-! ### The last pass -/

/-- Assigning groups to listed documents, worked out document by document. -/
theorem get?_of_assign {f : Nat → Option Nat} {docs : List Nat}
    (h : docs.foldlM (fun g d => (f d).bind (g.set? d)) g = some g') :
    (∀ d ∈ docs, ∃ y, f d = some y ∧ g'.get? d = (g.get? d).map fun _ => y) ∧
      ∀ d, d ∉ docs → g'.get? d = g.get? d := by
  refine foldlM_induct
    (fun done t => (∀ d ∈ done, ∃ y, f d = some y ∧ t.get? d = (g.get? d).map fun _ => y) ∧
      ∀ d, d ∉ done → t.get? d = g.get? d) ⟨by simp, fun _ _ => rfl⟩ ?_ h
  rintro done e rest t t' - ⟨hdone, hrest⟩ ht
  obtain ⟨y, hy, ht⟩ := Option.bind_eq_some_iff.mp ht
  constructor
  · intro d hd
    rw [Grouping.get?_set? ht]
    by_cases hde : d = e
    · subst hde
      refine ⟨y, hy, ?_⟩
      rw [if_pos rfl]
      by_cases hmem : d ∈ done
      · obtain ⟨z, -, hz⟩ := hdone d hmem
        rw [hz, Option.map_map]
        rfl
      · rw [hrest d hmem]
    · rw [if_neg hde]
      exact hdone d ((List.mem_append.mp hd).resolve_right (by simpa using hde))
  · intro d hd
    rw [List.mem_append, not_or] at hd
    rw [Grouping.get?_set? ht, if_neg (by simpa using hd.2), hrest d hd.1]

/-- The group of a document that no term matched. -/
def unmatchedGroup (rules : List MultiRule) (group : Nat) : Nat :=
  ((ruleFor? rules group).map (·.negative)).getD 0

theorem unmatchedGroup_le (rules : List MultiRule) (x : Nat) :
    unmatchedGroup rules x ≤ MultiRule.maxGroupOf rules := by
  unfold unmatchedGroup
  cases hr : ruleFor? rules x with
  | none => exact Nat.zero_le _
  | some r => exact negative_le_maxGroupOf (List.mem_of_find?_eq_some hr)

/-- The two loops of the last pass. -/
theorem finish?_cases (h : p.finish? feed rules g = some g') :
    ∃ t, g.Moves (fun d x => some (if p.matched.contains d then x else unmatchedGroup rules x))
        (List.range g.len) t ∧
      p.matched.toList.foldlM (fun t d => ((p.numbers.get? d).bind fun number =>
        (0 :: rules.flatMap (·.positives))[number]?).bind (t.set? d)) t = some g' := by
  obtain ⟨t, ht, h⟩ := Option.bind_eq_some_iff.mp h
  refine ⟨t, Grouping.moves_of_mapGroups? ht, foldlM_imp (fun d _ u u' hu => ?_) h⟩
  obtain ⟨number, hn, hu⟩ := Option.bind_eq_some_iff.mp hu
  obtain ⟨group, hgroup, hu⟩ := Option.bind_eq_some_iff.mp hu
  rw [List.getElem?_toArray] at hgroup
  rw [hn, Option.bind_some, hgroup, Option.bind_some]
  exact hu

/-- The last pass only writes groups of the rules, or group 0. -/
theorem overwrites_finish? {P : Nat → Prop} (hP : ∀ x ≤ MultiRule.maxGroupOf rules, P x)
    (h : p.finish? feed rules g = some g') : Overwrites P g g' := by
  obtain ⟨t, hmoves, hassign⟩ := finish?_cases h
  have hunmatched : Overwrites P g t := by
    refine hmoves.overwrites fun d x y _ hy => ?_
    cases hy
    split_ifs
    · exact .inl rfl
    · exact .inr (hP _ (unmatchedGroup_le rules x))
  have hmatched : Overwrites P t g' := by
    refine foldlM_relates Overwrites.refl (fun _ _ _ h1 h2 => h1.trans h2) ?_ hassign
    intro d _ u u' hu
    obtain ⟨y, hy, hu⟩ := Option.bind_eq_some_iff.mp hu
    obtain ⟨number, -, hy⟩ := Option.bind_eq_some_iff.mp hy
    exact Overwrites.of_set? (hP y (positive_le_maxGroupOf (List.mem_of_getElem? hy))) hu
  exact hunmatched.trans hmatched

/-- Where a document goes, by what was recorded of it. -/
theorem get?_finish? {records : List (Nat × List (Nat × Nat))}
    (hp : Partition.Recorded g rules records p) (h : p.finish? feed rules g = some g')
    {d x : Nat} (hx : g.get? d = some x) :
    g'.get? d = if Partition.offers records d x = [] then some (unmatchedGroup rules x)
      else (0 :: rules.flatMap (·.positives))[
        (Partition.offers records d x).foldl min (Partition.startNumber rules x)]? := by
  obtain ⟨t, hmoves, hassign⟩ := finish?_cases h
  obtain ⟨hmatched, hunmatched⟩ := get?_of_assign hassign
  have hd : d < p.matched.len := hp.len_eq.symm ▸ Grouping.lt_len_of_get? hx
  have hiff := (DocSet.mem_toList_iff_contains hd).trans (hp.contains_iff d x hx)
  split_ifs with ho
  · have hnot : d ∉ p.matched.toList := fun hmem => hiff.mp hmem ho
    have hcontains : p.matched.contains d = false := by
      rw [← Bool.not_eq_true, ← DocSet.mem_toList_iff_contains hd]
      exact hnot
    rw [hunmatched d hnot, hmoves.get?, hx, Option.bind_some, hcontains]
    rfl
  · have hmem : d ∈ p.matched.toList := hiff.mpr ho
    obtain ⟨y, hy, hget⟩ := hmatched d hmem
    rw [hp.number_eq d x hx, Option.bind_some] at hy
    rw [hget, hmoves.get?, hx, Option.bind_some, hy]
    rfl

/-! ### Numbers and destinations -/

/-- The smallest of numbers that are all below the start. -/
theorem foldl_min_mem {xs : List Nat} {start : Nat} (hxs : xs ≠ []) (hlt : ∀ x ∈ xs, x < start) :
    xs.foldl min start ∈ xs ∧ ∀ x ∈ xs, xs.foldl min start ≤ x := by
  have hmin : xs.min? = some (xs.foldl min start) := by
    cases xs with
    | nil => exact absurd rfl hxs
    | cons x xs =>
      rw [List.min?_cons', List.foldl_cons,
        Nat.min_eq_right (Nat.le_of_lt (hlt x List.mem_cons_self))]
  exact List.min?_eq_some_iff.mp hmin

/-- Nothing is offered to a document of a group that no rule targets. -/
theorem no_hit_of_find?_eq_none {shard : Shard} (hs : shard.Ascending) {d x : Nat}
    (hr : rules.find? (·.target == x) = none) (k : Nat) : ¬ Hit (matchPlan shard rules) d x k := by
  intro h
  obtain ⟨c, hc, rfl, -, -⟩ := satisfies_of_hit hs h
  obtain ⟨i, hi, -⟩ := mem_numberConditions.mp hc
  obtain ⟨r, hmem, hrc⟩ := List.mem_flatMap.mp (List.mem_of_getElem? hi)
  obtain ⟨_, _, heq⟩ := List.mem_map.mp hrc
  have hne := List.find?_eq_none.mp hr r hmem
  rw [(Prod.mk.inj heq).1] at hne
  simp at hne

/-- Documents of a targeted group start at a number above all that are offered. -/
theorem lt_startNumber_of_hit {shard : Shard} (hs : shard.Ascending) {r : MultiRule} {d x k : Nat}
    (hmax : MultiRule.numConditions rules ≤ maxId)
    (hr : rules.find? (·.target == x) = some r) (h : Hit (matchPlan shard rules) d x k) :
    k < Partition.startNumber rules x := by
  obtain ⟨c, hc, -, rfl, -⟩ := satisfies_of_hit hs h
  have hstart : Partition.startNumber rules x = MultiRule.numConditions rules + 1 := by
    unfold Partition.startNumber ruleFor?
    rw [hr, ← MultiRule.conditionCountOf_eq hmax]
    rfl
  rw [hstart]
  exact Nat.lt_succ_of_le (number_le hc)

/-- The group of the smallest offered number is the destination that the rule means. -/
theorem destination_of_offers {shard : Shard} (hs : shard.Ascending) (hc : Checked rules)
    (hmax : MultiRule.numConditions rules ≤ maxId) {d x : Nat} :
    (if Partition.offers (Partition.recordsOf (matchPlan shard rules)) d x = [] then
        some (unmatchedGroup rules x)
      else (0 :: rules.flatMap (·.positives))[
        (Partition.offers (Partition.recordsOf (matchPlan shard rules)) d x).foldl min
          (Partition.startNumber rules x)]?) = Meaning.target? shard rules d x := by
  have hoffer : ∀ k, k ∈ Partition.offers (Partition.recordsOf (matchPlan shard rules)) d x ↔
      Hit (matchPlan shard rules) d x k := fun k => Partition.mem_offers
  -- only the numbers that are offered matter, not when
  generalize Partition.offers (Partition.recordsOf (matchPlan shard rules)) d x = offers at hoffer
  unfold Meaning.target?
  cases hr : rules.find? (·.target == x) with
  | none =>
    have hnil : offers = [] := List.eq_nil_iff_forall_not_mem.mpr fun k hk =>
      no_hit_of_find?_eq_none hs hr k ((hoffer k).mp hk)
    rw [if_pos hnil, unmatchedGroup, ruleFor?, hr]
    rfl
  | some r =>
    have hmem := List.mem_of_find?_eq_some hr
    obtain rfl : r.target = x := by simpa using List.find?_some hr
    obtain ⟨first, hn⟩ := numbered_of_checked hc hmem
    show _ = Meaning.destination? shard d r
    unfold Meaning.destination?
    by_cases hnil : offers = []
    · have hno : ∀ k, ¬ Hit (matchPlan shard rules) d r.target k := by
        intro k hk
        rw [hnil] at hoffer
        exact List.not_mem_nil ((hoffer k).mpr hk)
      rw [if_pos hnil, hn.findIdx?_of_no_hit hs hno, unmatchedGroup, ruleFor?, hr]
      rfl
    · have hbelow : ∀ k ∈ offers, k < Partition.startNumber rules r.target :=
        fun k hk => lt_startNumber_of_hit hs hmax hr ((hoffer k).mp hk)
      obtain ⟨hbest, hleast⟩ := foldl_min_mem hnil hbelow
      rw [if_neg hnil]
      generalize offers.foldl min (Partition.startNumber rules r.target) = best at hbest hleast
      -- the least number that is offered is that of the first condition that is met
      obtain ⟨j, hj, rfl, hfirst⟩ := hn.findIdx?_of_least_hit hs ((hoffer best).mp hbest)
        fun i hi => hleast i ((hoffer i).mpr hi)
      rw [hfirst]
      exact hn.positive_eq j (by rwa [← hc.length_eq r hmem])

/-! ### The whole regroup -/

open Pass

/-- What rules do to a grouping: the number of groups is right, and on ascending shards every
document goes where the rules send it, which is nowhere if it is in group 0. -/
structure Applied (feed : Feed) (rules : List MultiRule) (g : Grouping) (n : Nat)
    (g' : Grouping) : Prop where
  wellFormed : g'.WellFormed feed.numDocs
  numGroups_eq : g'.numGroups = n
  meaning : feed.shard.Ascending → 0 < feed.chunk →
    Meaning.multiRules? feed.shard g.toList rules = some g'.toList
  spares : feed.shard.Ascending → 0 < feed.chunk → g.Spares g'

/-- The sweep of all fields and the last pass, from the grouping that has room on. -/
theorem ensures_sweep (hg : g.WellFormed feed.numDocs) (hn : 1 < g.numGroups)
    (hc : Checked rules) {m : Nat} (hm : MultiRule.maxGroupOf rules ≤ m) :
    Ensures (grouping >>= fun t => orBroken (Partition.start? feed rules t) >>= fun p =>
        orBroken (asId? (MultiRule.numConditions rules)) >>= fun _ =>
          orFail (p.run feed t rules errorOnCollisions) >>= fun p =>
            change (p.finish? feed rules) >>= fun _ => recount) (g.roomFor m)
      (Applied feed rules g) (fun _ g' => g.Unmoved feed.numDocs g') := by
  have hroom := hg.toRoomy.roomFor m
  refine ensures_bind (ensures_grouping (ensures_bind (ensures_orBroken fun p0 hp0 => ?_)))
  refine ensures_bind (ensures_orBroken fun k hk => ?_)
  obtain ⟨hmax, rfl⟩ := asId?_eq_some.mp hk
  refine ensures_bind (ensures_orFail (fun p hp => ?_) fun _ => hg.unmoved_roomFor m)
  refine ensures_rewrite hroom (fun g' hg' => overwrites_finish? (fun x hx => ?_) hg') ?_
  · exact Grouping.le_capacity_roomFor g (Nat.le_trans hx hm)
  · intro g1 g' hg1 hwf hget
    have htarget : feed.shard.Ascending → 0 < feed.chunk → ∀ d x, g.get? d = some x →
        g'.get? d = Meaning.target? feed.shard rules d x := by
      intro hs hchunk d x hx
      have hlen : (g.roomFor m).len = feed.numDocs := hroom.len_eq
      have hrecorded := (Partition.recorded_start? hlen.symm hp0).run hchunk
        (fun e he d hd => hlen.symm ▸ lt_numDocs_of_mem_matchPlan hs he hd) hp
      rw [← Grouping.get?_roomFor g m] at hx
      rw [hget, get?_finish? hrecorded hg1 hx]
      exact destination_of_offers hs hc hmax
    refine ⟨hwf, rfl, fun hs hchunk => ?_, fun hs hchunk d hd => ?_⟩
    · exact Meaning.multiRules?_eq hg hn (hwf.len_eq.trans hg.len_eq.symm) (htarget hs hchunk)
    · rw [htarget hs hchunk d 0 hd, Meaning.target?, hc.find?_zero]

/-- A regroup by rules is what the rules mean; refused, it moves no document. -/
theorem ensures_byMultiRules (hg : g.WellFormed feed.numDocs) (rules : List MultiRule)
    (errorOnCollisions : Bool) : Ensures (byMultiRules feed rules errorOnCollisions) g
      (Applied feed rules g) (fun _ g' => g.Unmoved feed.numDocs g') := by
  refine ensures_unlessFilteredOut (fun hn => ?_) fun hn => ?_
  · exact ⟨hg, rfl, fun _ _ => Meaning.multiRules?_filteredOut hg hn feed.shard rules,
      fun _ _ => .refl g⟩
  by_cases hempty : rules.isEmpty
  · rw [if_pos hempty]
    refine ensures_bind (ensures_replace (ensures_pure ⟨?_, rfl, fun _ _ => ?_,
      fun _ _ d hd => if_pos (Grouping.lt_len_of_get? hd)⟩))
    · rw [hg.len_eq]
      exact Grouping.wellFormed_constant 0 hg.numDocs_le
    · refine Meaning.multiRules?_eq hg hn rfl fun d x hx => ?_
      rw [List.isEmpty_iff.mp hempty]
      exact if_pos (Grouping.lt_len_of_get? hx)
  rw [if_neg hempty]
  refine ensures_bind (ensures_orBroken fun _ _ => ?_)
  refine ensures_bind (ensures_scratch (ensures_orRefused (fun highest hh => ?_)
    fun _ => hg.unmoved) fun _ => hg.unmoved)
  have hc := MultiRule.checked_of_checkMultiRules hh
  by_cases hid : MultiRule.isIdentityList rules g.numGroups
  · rw [if_pos hid]
    refine ensures_pure ⟨hg, rfl, fun _ _ => Meaning.multiRules?_eq hg hn rfl fun d x hx => ?_,
      fun _ _ => .refl g⟩
    rw [hx, hc.target?_of_isIdentityList hid (hg.lt_numGroups d x hx)]
  · rw [if_neg hid]
    refine ensures_bind (ensures_makeRoom hg.len_le ?_ fun _ => hg.unmoved)
    refine ensures_scratch ?_ fun _ => hg.unmoved_roomFor _
    refine ensures_bind (ensures_orBroken fun _ _ => ?_)
    refine ensures_scratch ?_ fun _ => hg.unmoved_roomFor _
    refine ensures_scratch ?_ fun _ => hg.unmoved_roomFor _
    exact ensures_sweep hg hn hc (Nat.le_max_right _ _)

theorem regroups_byMultiRules (hg : g.WellFormed feed.numDocs) (rules : List MultiRule)
    (errorOnCollisions : Bool) :
    Regroups feed.numDocs (byMultiRules feed rules errorOnCollisions) g :=
  (ensures_byMultiRules hg rules errorOnCollisions).mono fun _ _ h =>
    ⟨h.wellFormed, h.numGroups_eq⟩

/-! ### When rules go through -/

/-- Where no destination is the largest id, room for all of them is room that can be counted. -/
theorem maxGroupOf_lt (hb : ¬ ∃ r ∈ rules, maxId ≤ r.maxGroup) :
    MultiRule.maxGroupOf rules < maxId := by
  refine foldl_max_lt (by decide) fun x hx => ?_
  obtain ⟨r, hr, rfl⟩ := List.mem_map.mp hx
  exact Nat.lt_of_not_le fun h => hb ⟨r, hr, h⟩

/-- No start is too small for the smallest of some numbers. -/
theorem foldl_min_le {xs : List Nat} {x : Nat} (hx : x ∈ xs) (start : Nat) :
    xs.foldl min start ≤ x := by
  induction xs generalizing start with
  | nil => cases hx
  | cons y xs ih =>
    rw [List.foldl_cons]
    rcases List.mem_cons.mp hx with rfl | hx
    · have hle : ∀ a, xs.foldl min a ≤ a := by
        clear ih hx
        intro a
        induction xs generalizing a with
        | nil => exact Nat.le_refl a
        | cons z xs ih => exact Nat.le_trans (ih (min a z)) (Nat.min_le_left a z)
      exact Nat.le_trans (hle _) (Nat.min_le_right start x)
    · exact ih hx _

/-- The number of a matched document is that of a condition, which has a positive group. -/
theorem exists_positive (hs : feed.shard.Ascending) (hc : Checked rules)
    (hp : Partition.Recorded g rules (Partition.recordsOf (matchPlan feed.shard rules)) p)
    {d : Nat} (hd : d < g.len) (hmem : d ∈ p.matched.toList) :
    ∃ number x, p.numbers.get? d = some number ∧
      (0 :: rules.flatMap (·.positives))[number]? = some x := by
  obtain ⟨group, hgroup⟩ := Grouping.get?_of_lt_len hd
  rw [DocSet.mem_toList_iff_contains (hp.len_eq.symm ▸ hd), hp.contains_iff d group hgroup] at hmem
  obtain ⟨k, hk⟩ := List.exists_mem_of_ne_nil _ hmem
  obtain ⟨c, hcond, -, rfl, -⟩ := satisfies_of_hit hs (Partition.mem_offers.mp hk)
  have hle := Nat.le_trans (foldl_min_le hk (Partition.startNumber rules group)) (number_le hcond)
  have hlen := length_positives hc.length_eq
  exact ⟨_, _, hp.number_eq d group hgroup, List.getElem?_eq_getElem (by
    rw [List.length_cons, hlen]
    omega)⟩

theorem exists_finish? (hs : feed.shard.Ascending) (hc : Checked rules)
    (hp : Partition.Recorded g rules (Partition.recordsOf (matchPlan feed.shard rules)) p)
    (hready : Partition.Ready g rules p) (hg : g.All g.Accepts)
    (haccepts : ∀ x ≤ MultiRule.maxGroupOf rules, g.Accepts x) :
    ∃ g', p.finish? feed rules g = some g' := by
  obtain ⟨t, ht⟩ : ∃ t, g.mapGroups? feed.chunk (fun d x =>
      some (if p.matched.contains d then x else unmatchedGroup rules x)) = some t := by
    refine Grouping.exists_mapGroups? fun d x hx => ⟨_, rfl, ?_⟩
    split_ifs
    · exact hg d x hx
    · exact haccepts _ (unmatchedGroup_le rules x)
  have hframe := (Grouping.moves_of_mapGroups? ht).frame_eq
  -- each group is written to words with room for all groups of the rules
  have hassign : ∀ d ∈ p.matched.toList, ∀ u : Grouping, u.frame = g.frame →
      ∃ u', ((p.numbers.get? d).bind fun number =>
        ((0 :: rules.flatMap (·.positives)).toArray[number]?).bind (u.set? d)) = some u' ∧
          u'.frame = g.frame := by
    intro d hd u hu
    have hlt := hready.matched_lt d hd
    obtain ⟨number, x, hnumber, hx⟩ := exists_positive hs hc hp hlt hd
    have hacc := haccepts x (positive_le_maxGroupOf (List.mem_of_getElem? hx))
    obtain ⟨u', hu'⟩ := Grouping.exists_set? (Grouping.len_eq_of_frame hu ▸ hlt) (hacc.of_frame hu)
    refine ⟨u', ?_, (Grouping.frame_set? hu').trans hu⟩
    rw [hnumber, Option.bind_some, List.getElem?_toArray, hx, Option.bind_some, hu']
  obtain ⟨g', hg', -⟩ := exists_foldlM_of (fun u : Grouping => u.frame = g.frame) hframe hassign
  refine ⟨g', ?_⟩
  show (g.mapGroups? feed.chunk _).bind _ = _
  unfold unmatchedGroup at ht
  rw [ht, Option.bind_some]
  exact hg'

/-- The sweep and the last pass go through unless the documents collide. -/
theorem concludes_sweep (hg : g.Counted feed.numDocs) (hs : feed.shard.Ascending)
    (hchunk : 0 < feed.chunk) (hc : Checked rules) {m : Nat}
    (hm : MultiRule.maxGroupOf rules ≤ m) :
    Concludes (grouping >>= fun t => orBroken (Partition.start? feed rules t) >>= fun p =>
        orBroken (asId? (MultiRule.numConditions rules)) >>= fun _ =>
          orFail (p.run feed t rules errorOnCollisions) >>= fun p =>
            change (p.finish? feed rules) >>= fun _ => recount) (g.roomFor m)
      (fun _ g' => g.Grown g')
      ((∃ r ∈ rules, maxId ≤ r.maxGroup) ∨ maxId ≤ MultiRule.numConditions rules) := by
  have hlen : (g.roomFor m).len = feed.numDocs := (Grouping.len_roomFor g m).trans hg.len_eq
  have hdocs : ∀ e ∈ matchPlan feed.shard rules, ∀ d ∈ e.1, d < (g.roomFor m).len :=
    fun e he d hd => hlen.symm ▸ lt_numDocs_of_mem_matchPlan hs he hd
  -- as long as the numbers are group ids, the sweep starts, and then no record breaks
  have hstart : ¬ ((∃ r ∈ rules, maxId ≤ r.maxGroup) ∨
      maxId ≤ MultiRule.numConditions rules) → ∃ p,
        Partition.start? feed rules (g.roomFor m) = some p ∧
          Partition.Ready (g.roomFor m) rules p :=
    fun hb => Partition.ready_start? hlen.symm (Nat.lt_of_le_of_lt
      (MultiRule.conditionCountOf_le rules) (Nat.lt_of_not_le fun h => hb (.inr h)))
  refine completes_bind (completes_grouping (completes_bind (completes_orBroken
    (fun p0 hp0 => ?_) fun hnone => ?_)))
  · refine completes_bind (completes_orBroken (fun _ _ => ?_)
      fun hnone => .inr (Nat.le_of_lt (asId?_eq_none.mp hnone)))
    refine completes_bind (completes_orFail (fun p hp => ?_) (fun _ _ => g.grown_roomFor m)
      fun hbroken => ?_)
    · have hrecorded := (Partition.recorded_start? hlen.symm hp0).run hchunk hdocs hp
      refine concludes_rewrite hg hm (fun hb => maxGroupOf_lt fun h => hb (.inl h))
        (fun g' hg' => overwrites_finish? (fun _ hx => hx) hg') fun hb haccepts => ?_
      obtain ⟨p1, hp1, hready⟩ := hstart hb
      obtain rfl := Option.some.inj (hp1.symm.trans hp0)
      exact exists_finish? hs hc hrecorded (hready.of_run hchunk hdocs hp) (hg.roomFor_accepts m)
        haccepts
    · by_contra hb
      obtain ⟨p1, hp1, hready⟩ := hstart hb
      obtain rfl := Option.some.inj (hp1.symm.trans hp0)
      exact hready.run_unbroken hchunk hdocs hbroken
  · by_contra hb
    obtain ⟨p, hp, -⟩ := hstart hb
    cases hp.symm.trans hnone

theorem concludes_byMultiRules (hg : g.Counted feed.numDocs) (hs : feed.shard.Ascending)
    (hchunk : 0 < feed.chunk) (rules : List MultiRule) (errorOnCollisions : Bool) :
    Concludes (byMultiRules feed rules errorOnCollisions) g (fun _ g' => g.Grown g')
      ((∃ r ∈ rules, maxId ≤ r.maxGroup) ∨ maxId ≤ MultiRule.numConditions rules) := by
  refine concludes_unlessFilteredOut hg fun _ => ?_
  by_cases hempty : rules.isEmpty
  · rw [if_pos hempty]
    exact concludes_replace (by decide)
  rw [if_neg hempty]
  have hcount := MultiRule.conditionCountOf_le rules
  refine completes_bind (completes_orBroken (fun _ _ => ?_)
    fun hnone => .inr (Nat.le_of_lt (Nat.lt_of_lt_of_le (asId?_eq_none.mp hnone) hcount)))
  refine completes_bind (completes_scratch (completes_orRefused (fun highest hh => ?_)
    fun _ _ => g.grown_refl) fun _ => g.grown_refl)
  by_cases hid : MultiRule.isIdentityList rules g.numGroups
  · rw [if_pos hid]
    exact completes_pure hg.numGroups_le
  rw [if_neg hid]
  refine completes_bind (completes_makeRoom hg ?_ fun _ => g.grown_refl)
  refine completes_scratch ?_ fun _ => g.grown_roomFor _
  refine completes_bind (completes_orBroken (fun _ _ => ?_) fun hnone =>
    .inr (Nat.le_trans (Nat.le_of_lt_succ (asId?_eq_none.mp hnone)) hcount))
  refine completes_scratch ?_ fun _ => g.grown_roomFor _
  refine completes_scratch ?_ fun _ => g.grown_roomFor _
  have hc := MultiRule.checked_of_checkMultiRules hh
  exact concludes_sweep hg hs hchunk hc (Nat.le_max_right _ _)

/-- Conditions that cannot be counted break the call before any rule is looked at. -/
theorem completes_byMultiRules_overflow (hn : 1 < g.numGroups)
    (hcount : maxId < MultiRule.conditionCountOf rules) :
    Completes (byMultiRules feed rules errorOnCollisions) g (fun _ _ => False) (fun _ _ => False)
      True := by
  refine completes_unlessFilteredOut (fun hle => absurd hn (Nat.not_lt_of_le hle)) fun _ => ?_
  have hne : rules.isEmpty = false := by
    cases rules with
    | nil => cases hcount
    | cons => rfl
  rw [hne, if_neg Bool.false_ne_true]
  refine completes_bind (completes_orBroken (fun count hsome => ?_) fun _ => trivial)
  exact absurd (asId?_eq_some.mp hsome).1 (Nat.not_le_of_lt hcount)

end Cohort.Regroup
