import Cohort.Proofs.Regroup.DealMeaning
import Cohort.Proofs.Regroup.Remap
import Cohort.Proofs.Regroup.RuleMeaning
import Cohort.Proofs.Regroup.SplitMeaning
import Cohort.Proofs.Regroup.Values

/-!
# Group 0 — regroups that let no document out of it

Where a regroup is told by the group that it sends every document to, it keeps group 0 if that is
sent to itself: no rule is for it, no remap has it as a source, and splits and deals only touch
their target. Buckets and cells are told only for documents that have a value, so there it is the
passes themselves that are followed: a bucket or cell of group 0 is group 0 again.
-/

namespace Cohort.Regroup

open Pass

variable {feed : Feed} {g g' : Grouping} {x : Pass Nat} {f : Nat → Nat → Nat} {n : Nat}
  {refused : Error → Prop} {excuse : Prop} {split : Split} {passes : Nat → Bool} {deal : Deal}
  {hashOf : Nat → Option Nat} {unmatched : Option Nat}

/-! ### Regroups that send group 0 to itself -/

theorem spares_of_completes {ok : Nat → Grouping → Prop} {refused : Error → Grouping → Prop}
    {broken : Prop} (h : Completes x g ok refused broken)
    (hok : ∀ n g', ok n g' → g.Spares g') : Spares x g :=
  ensures_iff.mpr (h.mono hok (fun _ _ _ => trivial) fun _ => trivial)

theorem Rearranged.spares (h : Rearranged f g n g') (h0 : ∀ d, f d 0 = 0) : g.Spares g' := by
  intro d hd
  rw [h.get?_eq d 0 hd, h0]

theorem Rearranges.spares (h : Rearranges refused excuse f x g) (h0 : ∀ d, f d 0 = 0) :
    Spares x g := by
  refine spares_of_completes h fun n g' hok => ?_
  split_ifs at hok
  · exact hok.spares h0
  · exact hok.2 ▸ .refl g

theorem Splits.spares (h : Splits split passes x g) (h0 : split.target ≠ 0) : Spares x g :=
  Rearranges.spares h fun d => split.destination_other (Ne.symm h0) passes d

/-- A deal, whatever it takes the hash of a document for. -/
theorem spares_of_destination (h : Rearranges refused excuse (deal.destination unmatched hashOf) x g)
    (h0 : deal.target ≠ 0) : Spares x g :=
  h.spares fun d => Deal.destination_other (Ne.symm h0) unmatched hashOf d

/-- Rules, of any number of conditions. -/
theorem spares_of_applied {rules : List MultiRule} {unmoved : Error → Grouping → Prop}
    (h : Ensures x g (Applied feed rules g) unmoved) (hs : feed.shard.Ascending)
    (hchunk : 0 < feed.chunk) : Spares x g :=
  spares_of_completes (ensures_iff.mp h) fun _ _ ha => ha.spares hs hchunk

/-- Group 0 is not a source. -/
theorem spares_byRemap (hg : g.WellFormed feed.numDocs) (sources destinations : List Nat)
    (onlyRemapped : Bool) : Spares (byRemap feed sources destinations onlyRemapped) g := by
  refine spares_of_completes ((completes_byRemap hg.len_le sources destinations
    onlyRemapped).and (ensures_iff.mp (sends_byRemap hg sources destinations onlyRemapped)))
    fun n g' hok d hd => ?_
  obtain ⟨⟨-, h0⟩, hsent⟩ := hok
  rw [get?_of_remapped hg hsent hd, remapped_zero h0]

/-! ### Values -/

theorem compose?_zero {bucket total y : Nat} (hy : compose? 0 bucket total = some y) : y = 0 := by
  rw [compose?, if_pos (by simp)] at hy
  exact (Option.some_inj.mp hy).symm

/-- A constant grouping of group 0 is replaced by itself only. -/
theorem spares_replace_recount {x y n : Nat} (h : x = 0 → y = 0) :
    Spares (replace y >>= fun _ => recount) (.constant x n) := by
  refine ensures_bind (ensures_replace (ensures_recount fun g' hg' d hd => ?_))
  rw [Grouping.get?_recount? hg']
  have hlt : d < n := Grouping.lt_len_of_get? hd
  have hx : x = 0 := by
    rw [Grouping.get?, if_pos hlt] at hd
    exact Option.some_inj.mp hd
  rw [h hx]
  exact if_pos hlt

theorem spares_toOneBucket (hlen : g.len ≤ maxId) (bucket total : Nat) :
    Spares (toOneBucket feed bucket total) g := by
  unfold toOneBucket
  by_cases h0 : bucket = 0
  · rw [if_pos h0]
    exact spares_replace
  rw [if_neg h0]
  refine ensures_bind (ensures_grouping ?_)
  cases g with
  | constant x n =>
    refine spares_orBroken_bind fun composed hc => spares_replace_recount fun hx => ?_
    rw [hx] at hc
    exact compose?_zero hc
  | stored s =>
    refine spares_orBroken_bind fun _ _ => spares_makeRoom_bind hlen ?_
    exact spares_rewrite (fun _ => Grouping.moves_of_mapGroups?) fun _ _ => compose?_zero

theorem spares_byBuckets (hlen : g.len ≤ maxId) (values : ValueTable) (buckets : IntervalBuckets) :
    Spares (byBuckets feed values buckets) g := by
  refine spares_unlessFilteredOut fun _ => spares_orRefused_bind fun _ _ => ?_
  refine spares_orBroken_bind fun common _ => ?_
  cases common with
  | some bucket => exact spares_toOneBucket hlen bucket _
  | none =>
    refine spares_makeRoom_bind hlen
      (spares_rewrite (fun _ => Grouping.moves_of_mapGroupsWithValues?) fun d y hy => ?_)
    obtain ⟨v, -, hy⟩ := Option.bind_eq_some_iff.mp hy
    obtain ⟨bucket, -, hy⟩ := Option.bind_eq_some_iff.mp hy
    exact compose?_zero hy

theorem spares_toOneGroup (hlen : g.len ≤ maxId) (x : Nat) : Spares (toOneGroup feed x) g := by
  refine ensures_bind (ensures_grouping ?_)
  cases g with
  | constant old n =>
    by_cases h0 : old ≠ 0
    · simp only [if_pos h0]
      exact spares_replace_recount fun h => absurd h h0
    · simp only [if_neg h0]
      exact ensures_recount fun g' hg' => Grouping.spares_of_get? (Grouping.get?_recount? hg')
  | stored s =>
    refine spares_makeRoom_bind hlen
      (spares_rewrite (fun _ => Grouping.moves_of_mapGroups?) fun d y hy => ?_)
    rw [if_pos rfl] at hy
    exact (Option.some_inj.mp hy).symm

theorem spares_byGrid (hlen : g.len ≤ maxId) (x y : ValueTable) (grid : Grid) :
    Spares (byGrid feed x y grid) g := by
  refine spares_unlessFilteredOut fun _ => spares_orRefused_bind fun _ _ => ?_
  split
  · exact spares_orBroken_bind fun cell _ => spares_toOneGroup hlen cell
  · refine spares_makeRoom_bind hlen (spares_scratch
      (spares_rewrite (fun _ => moves_of_cellChunks (by omega)) fun d z hz => ?_))
    obtain ⟨vx, -, hz⟩ := Option.bind_eq_some_iff.mp hz
    obtain ⟨vy, -, hz⟩ := Option.bind_eq_some_iff.mp hz
    rw [if_pos rfl] at hz
    exact (Option.some_inj.mp hz).symm

theorem spares_byRange (hlen : g.len ≤ maxId) (values : ValueTable) (min max : Int)
    (negate : Bool) :
    Spares (byRange feed values min max negate) g := by
  refine spares_unlessFilteredOut fun _ => ?_
  simp only
  split_ifs
  · exact spares_replace
  · exact ensures_pure (.refl g)
  · refine spares_makeRoom_bind hlen
      (spares_rewrite (fun _ => Grouping.moves_of_mapGroupsWithValues?) fun d y hy => ?_)
    obtain ⟨v, -, hy⟩ := Option.bind_eq_some_iff.mp hy
    cases hy
    exact ite_self 0

end Cohort.Regroup
