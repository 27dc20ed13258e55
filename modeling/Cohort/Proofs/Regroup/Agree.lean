import Cohort.Proofs.Grouping.Agree
import Cohort.Proofs.Regroup.Deal
import Cohort.Proofs.Regroup.MultiRules
import Cohort.Proofs.Regroup.Remap
import Cohort.Proofs.Regroup.Rules
import Cohort.Proofs.Regroup.Split
import Cohort.Proofs.Regroup.Values

/-!
# Agreement of regroups — the size of the buffers does not matter

Every regroup, fed the same shard through buffers of `c` and of `c'` entries, agrees with itself:
all its loops are loops over single documents, however these are cut into chunks. Where a chunk of
documents is skipped whole, its documents must have values, or a missing one would go unnoticed by
the one and not by the other.
-/

namespace Cohort

variable {c c' : Nat}

theorem Grouping.mapGroups?_congr (g : Grouping) (c c' : Nat) (f : Nat → Nat → Option Nat) :
    g.mapGroups? c' f = g.mapGroups? c f := by
  rw [mapGroups?_eq, mapGroups?_eq]

theorem Marking.finish?_congr (m : Marking) (c c' : Nat) (f : Nat → Nat) :
    m.finish? c' f = m.finish? c f :=
  m.grouping.mapGroups?_congr c c' _

theorem Marking.visitAll?_congr (hc : 0 < c) (hc' : 0 < c') (m : Marking)
    (destination : Nat → Option Nat) (docs : List Nat) :
    m.visitAll? c' destination docs = m.visitAll? c destination docs := by
  rw [visitAll?_eq hc, visitAll?_eq hc']

namespace Regroup

open Pass
open Grouping (bytes_eq_of_frame)

variable {strict : Prop} {shard : Shard} {g : Grouping}

theorem agrees_setUp_bind {d : Deal} {f f' : Unit → Pass Nat} (hlen : g.len ≤ maxId)
    (h : Agrees strict (f ()) (f' ()) (g.roomFor (d.results.foldl max 0))) :
    Agrees strict (d.setUp >>= f) (d.setUp >>= f') g := by
  unfold Deal.setUp
  rw [bind_assoc, bind_assoc]
  exact agrees_orRefused_bind fun _ _ => agrees_makeRoom_bind hlen h

/-! ### Postings -/

section Postings

variable (hc : 0 < c) (hc' : 0 < c')
include hc hc'

theorem agrees_splitByPostings (hlen : g.len ≤ maxId) (lists : List (List Nat))
    (split : Split) :
    Agrees strict (splitByPostings ⟨shard, c⟩ lists split) (splitByPostings ⟨shard, c'⟩ lists split)
      g := by
  refine agrees_makeRoom_bind hlen (agrees_scratch (fun _ => rfl)
    (agrees_rewrite ?_ fun g' hg' => ?_))
  · have hvisits : ∀ m : Marking, lists.foldlM (Marking.visitAll? c' (passing split)) m =
        lists.foldlM (Marking.visitAll? c (passing split)) m :=
      foldlM_ext fun list _ m => m.visitAll?_congr hc hc' _ list
    simp only [hvisits, Marking.finish?_congr _ c c']
    rfl
  · exact bytes_eq_of_frame (@overwrites_split ⟨shard, c⟩ _ _ _ _ _ hg').frame_eq

theorem agrees_splitByAny {τ : Type} [LT τ] [DecidableLT τ] [DecidableEq τ] (hlen : g.len ≤ maxId)
    (postings : Postings τ) (terms : List τ) (split : Split) :
    Agrees strict (splitByAny ⟨shard, c⟩ postings terms split)
      (splitByAny ⟨shard, c'⟩ postings terms split) g :=
  agrees_unlessFilteredOut (agrees_splitByPostings hc hc' hlen _ split)

theorem agrees_byRules (hlen : g.len ≤ maxId) (rules : List Rule) :
    Agrees strict (byRules ⟨shard, c⟩ rules) (byRules ⟨shard, c'⟩ rules) g := by
  refine agrees_unlessFilteredOut (agrees_scratch (fun _ => rfl) ?_)
  refine agrees_orRefused_bind fun live _ => agrees_makeRoom_bind hlen ?_
  refine agrees_scratch (fun _ => rfl) (agrees_rewrite ?_ fun g' hg' => ?_)
  · have hint : ∀ (m : Marking) field, visitIntField? ⟨shard, c'⟩ live m field =
        visitIntField? ⟨shard, c⟩ live m field := fun m field =>
      foldlM_ext (fun e _ m => m.visitAll?_congr hc hc' _ e.2) m
    have hstring : ∀ (m : Marking) field, visitStringField? ⟨shard, c'⟩ live m field =
        visitStringField? ⟨shard, c⟩ live m field := fun m field =>
      foldlM_ext (fun e _ m => m.visitAll?_congr hc hc' _ e.2) m
    unfold applyRules?
    rw [show visitIntField? ⟨shard, c'⟩ live = visitIntField? ⟨shard, c⟩ live from
        funext₂ hint, show visitStringField? ⟨shard, c'⟩ live = visitStringField? ⟨shard, c⟩ live
        from funext₂ hstring]
    simp only [Marking.finish?_congr _ c c']
    rfl
  · have ho := @overwrites_applyRules? ⟨shard, c⟩ _ _ live _ (fun _ hx => hx) hg'
    exact bytes_eq_of_frame ho.frame_eq

/-- The conditions of all rules are checked, applied and counted alike. -/
theorem agrees_byMultiRules (hg : g.WellFormed shard.numDocs) (hs : shard.Ascending)
    (rules : List MultiRule) (errorOnCollisions : Bool) :
    Agrees strict (byMultiRules ⟨shard, c⟩ rules errorOnCollisions)
      (byMultiRules ⟨shard, c'⟩ rules errorOnCollisions) g := by
  refine agrees_unlessFilteredOut ?_
  by_cases hempty : rules.isEmpty
  · rw [if_pos hempty, if_pos hempty]
    exact agrees_replace_bind (agrees_pure _)
  rw [if_neg hempty, if_neg hempty]
  refine agrees_orBroken_bind fun count _ => ?_
  have hcheck : Ensures (scratch (max (rules.length * 4) (count * 8))
      fun _ => orRefused (checkMultiRules rules)) g (fun _ g' => g = g') fun _ _ => True :=
    ensures_scratch (ensures_orRefused (fun _ _ => rfl) fun _ => trivial) fun _ => trivial
  refine agrees_bind hcheck (agrees_scratch (fun _ => rfl) (agrees_orRefused _)) ?_
  rintro highest _ rfl
  by_cases hid : MultiRule.isIdentityList rules g.numGroups
  · rw [if_pos hid, if_pos hid]
    exact agrees_pure _
  rw [if_neg hid, if_neg hid]
  refine agrees_makeRoom_bind hg.len_le (agrees_scratch (fun _ => rfl)
    (agrees_orBroken_bind fun _ _ => agrees_scratch (fun _ => rfl)
      (agrees_scratch (fun _ => rfl) (agrees_grouping ?_))))
  -- from here on the grouping is the one with room
  generalize hroom : g.roomFor (max (max g.numGroups highest) (MultiRule.maxGroupOf rules)) = t
  have hlen : shard.numDocs = t.len := by
    rw [← hroom, Grouping.len_roomFor, hg.len_eq]
  have hdocs : ∀ e ∈ matchPlan shard rules, ∀ d ∈ e.1, d < t.len :=
    fun e he d hd => hlen ▸ lt_numDocs_of_mem_matchPlan hs he hd
  have hstart := (@Partition.start?_eq ⟨shard, c'⟩ t rules hlen).trans
    (@Partition.start?_eq ⟨shard, c⟩ t rules hlen).symm
  -- both sweeps make the records of the matches in their order, wherever a chunk ends
  have hrun : ∀ p : Partition, p.run ⟨shard, c'⟩ t rules errorOnCollisions =
      p.run ⟨shard, c⟩ t rules errorOnCollisions := fun p =>
    (@Partition.run_eq ⟨shard, c'⟩ t rules errorOnCollisions hc' hdocs p).trans
      (@Partition.run_eq ⟨shard, c⟩ t rules errorOnCollisions hc hdocs p).symm
  rw [hstart]
  refine agrees_orBroken_bind fun p _ => agrees_orBroken_bind fun _ _ => ?_
  rw [hrun]
  refine agrees_orFail_bind fun p _ => agrees_rewrite ?_ fun g' hg' => ?_
  · unfold Partition.finish?
    rw [Grouping.mapGroups?_congr _ c c']
  · have ho := overwrites_finish? (P := (· ≤ MultiRule.maxGroupOf rules)) (fun _ hx => hx) hg'
    exact bytes_eq_of_frame ho.frame_eq

theorem agrees_dealByPostings (hlen : g.len ≤ maxId) (lists : List (Nat × List Nat)) (d : Deal)
    {unmatched : Option Nat} (hu : ∀ x ∈ unmatched, x ∈ d.results) :
    Agrees strict (dealByPostings ⟨shard, c⟩ lists d unmatched)
      (dealByPostings ⟨shard, c'⟩ lists d unmatched) g := by
  have hvisits : dealVisits? ⟨shard, c'⟩ lists d = dealVisits? ⟨shard, c⟩ lists d := by
    funext m
    refine foldlM_ext (fun ⟨h, docs⟩ _ m => ?_) m
    show ((d.groupFor? h).bind fun x => m.visitAll? c' _ docs) =
      (d.groupFor? h).bind fun x => m.visitAll? c _ docs
    exact congrArg _ (funext fun x => m.visitAll?_congr hc hc' _ docs)
  have hrest : dealRest? ⟨shard, c'⟩ d unmatched = dealRest? ⟨shard, c⟩ d unmatched := by
    funext m
    cases unmatched with
    | none => rfl
    | some fallback => exact m.finish?_congr c c' _
  refine agrees_unlessFilteredOut (agrees_setUp_bind hlen (agrees_scratch (fun _ => rfl)
    (agrees_rewrite ?_ fun g' hg' => ?_)))
  · show (dealVisits? ⟨shard, c'⟩ lists d _ >>= dealRest? ⟨shard, c'⟩ d unmatched) =
      (dealVisits? ⟨shard, c⟩ lists d _ >>= dealRest? ⟨shard, c⟩ d unmatched)
    rw [hvisits, hrest]
    rfl
  · exact bytes_eq_of_frame (@overwrites_deal ⟨shard, c⟩ _ _ _ _ _ hu hg').frame_eq

end Postings

/-! ### Queries and tables -/

theorem agrees_splitByQuery (hlen : g.len ≤ maxId) (rule : QueryRule) :
    Agrees strict (splitByQuery ⟨shard, c⟩ rule) (splitByQuery ⟨shard, c'⟩ rule) g := by
  refine agrees_unlessFilteredOut (agrees_search rfl fun docs => agrees_makeRoom_bind hlen ?_)
  exact agrees_rewrite rfl fun g' hg' =>
    bytes_eq_of_frame (Grouping.overwrites_splitBy? hg').frame_eq

theorem agrees_mapGroups {f : Nat → Nat → Option Nat} :
    Agrees strict (change (·.mapGroups? c f) >>= fun _ => recount)
      (change (·.mapGroups? c' f) >>= fun _ => recount) g :=
  agrees_rewrite (g.mapGroups?_congr c c' f) fun _ hg' =>
    bytes_eq_of_frame (Grouping.moves_of_mapGroups? hg').frame_eq

theorem agrees_byRemap (hlen : g.len ≤ maxId) (sources destinations : List Nat)
    (onlyRemapped : Bool) :
    Agrees strict (byRemap ⟨shard, c⟩ sources destinations onlyRemapped)
      (byRemap ⟨shard, c'⟩ sources destinations onlyRemapped) g := by
  refine agrees_orRefused_bind fun _ _ => agrees_unlessFilteredOut ?_
  refine agrees_scratch (fun _ => rfl) ?_
  simp only
  split_ifs
  · exact agrees_pure _
  · exact agrees_replace_bind (agrees_pure _)
  · exact agrees_makeRoom_bind hlen agrees_mapGroups

/-! ### Values -/

theorem agrees_mapGroupsWithValues {values : ValueTable} {f : Nat → Int → Option Nat} :
    Agrees strict (change (·.mapGroupsWithValues? c values f) >>= fun _ => recount)
      (change (·.mapGroupsWithValues? c' values f) >>= fun _ => recount) g := by
  refine agrees_rewrite ?_ fun _ hg' =>
    bytes_eq_of_frame (Grouping.moves_of_mapGroupsWithValues? hg').frame_eq
  rw [Grouping.mapGroupsWithValues?_eq, Grouping.mapGroupsWithValues?_eq]

theorem agrees_toOneBucket (hlen : g.len ≤ maxId) (bucket total : Nat) :
    Agrees strict (toOneBucket ⟨shard, c⟩ bucket total) (toOneBucket ⟨shard, c'⟩ bucket total)
      g := by
  unfold toOneBucket
  by_cases h0 : bucket = 0
  · rw [if_pos h0, if_pos h0]
    exact agrees_replace_bind (agrees_pure _)
  rw [if_neg h0, if_neg h0]
  refine agrees_grouping ?_
  cases g with
  | constant x n => exact agrees_orBroken_bind fun _ _ => agrees_replace_bind agrees_recount
  | stored s => exact agrees_orBroken_bind fun _ _ => agrees_makeRoom_bind hlen agrees_mapGroups

theorem agrees_byBuckets (hlen : g.len ≤ maxId) (values : ValueTable) (buckets : IntervalBuckets) :
    Agrees strict (byBuckets ⟨shard, c⟩ values buckets) (byBuckets ⟨shard, c'⟩ values buckets)
      g := by
  refine agrees_unlessFilteredOut (agrees_orRefused_bind fun _ _ => agrees_orBroken_bind ?_)
  intro common _
  cases common with
  | some bucket => exact agrees_toOneBucket hlen bucket buckets.total
  | none => exact agrees_makeRoom_bind hlen agrees_mapGroupsWithValues

theorem agrees_toOneGroup (hlen : g.len ≤ maxId) (x : Nat) :
    Agrees strict (toOneGroup ⟨shard, c⟩ x) (toOneGroup ⟨shard, c'⟩ x) g := by
  refine agrees_grouping ?_
  cases g with
  | constant old n =>
    by_cases h0 : old ≠ 0
    · simp only [if_pos h0]
      exact agrees_replace_bind agrees_recount
    · simp only [if_neg h0]
      exact agrees_recount
  | stored s => exact agrees_makeRoom_bind hlen agrees_mapGroups

/-- One axis is buffered in bytes of its own: strict runs need buffers of the same size. -/
theorem agrees_byGrid (hlen : g.len ≤ maxId) (hbuffer : strict → c' = c) (x y : ValueTable)
    (grid : Grid) :
    Agrees strict (byGrid ⟨shard, c⟩ x y grid) (byGrid ⟨shard, c'⟩ x y grid) g := by
  refine agrees_unlessFilteredOut (agrees_orRefused_bind fun highest hh => ?_)
  split
  · exact agrees_orBroken_bind fun cell _ => agrees_toOneGroup hlen cell
  · refine agrees_makeRoom_bind hlen (agrees_scratch (fun hs => ?_)
      (agrees_rewrite ?_ fun g' hg' => ?_))
    · rw [hbuffer hs]
    · rw [cellChunks_eq _ grid x y (by omega), cellChunks_eq _ grid x y (by omega)]
    · exact bytes_eq_of_frame (moves_of_cellChunks (by omega) hg').frame_eq

theorem agrees_byRange (hlen : g.len ≤ maxId) (values : ValueTable) (min max : Int)
    (negate : Bool) :
    Agrees strict (byRange ⟨shard, c⟩ values min max negate)
      (byRange ⟨shard, c'⟩ values min max negate) g := by
  refine agrees_unlessFilteredOut ?_
  simp only
  split_ifs
  · exact agrees_replace_bind (agrees_pure _)
  · exact agrees_pure _
  · exact agrees_makeRoom_bind hlen agrees_mapGroupsWithValues

/-- A chunk without documents of the target is not read, so that, where the chunks differ, none of
its values may be missing. -/
theorem agrees_dealByValues (hg : g.Counted shard.numDocs) {hash : SaltedHash}
    {values : ValueTable} (hcovers : c' ≠ c → values.Covers shard.numDocs) (d : Deal) :
    Agrees strict (dealByValues ⟨shard, c⟩ hash values d) (dealByValues ⟨shard, c'⟩ hash values d)
      g := by
  refine agrees_unlessFilteredOut (agrees_setUp_bind hg.len_le ?_)
  have hlen := (Grouping.len_roomFor g (d.results.foldl max 0)).trans hg.len_eq
  simp only [Feed.numDocs]
  rw [← hlen] at hcovers ⊢
  refine agrees_rewrite ?_ fun g' hg' => bytes_eq_of_frame (overwrites_dealChunks hg').frame_eq
  by_cases hsize : c' = c
  · rw [hsize]
  · rw [dealChunks_eq (hg.roomFor_accepts _) (hcovers hsize),
      dealChunks_eq (hg.roomFor_accepts _) (hcovers hsize)]

end Regroup

end Cohort
