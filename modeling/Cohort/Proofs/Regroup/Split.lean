import Cohort.Proofs.Regroup.Feed
import Cohort.Regroup.Split

/-!
# Splits — what splitting one group ensures, and when it goes through
-/

namespace Cohort.Regroup

open Pass
open Grouping (Overwrites Grown)

variable {feed : Feed} {g g' : Grouping} {numDocs : Nat} {lists : List (List Nat)} {split : Split}

/-! ### What a split ensures -/

theorem passing_le {x y : Nat} (hy : passing split x = some y) : y ≤ split.maxGroup := by
  unfold passing at hy
  split_ifs at hy
  cases hy
  exact Nat.le_max_right _ _

theorem failing_le (split : Split) (x : Nat) :
    (if x = split.target then split.negative else x) = x ∨
      (if x = split.target then split.negative else x) ≤ split.maxGroup := by
  split_ifs
  · exact .inr (Nat.le_max_left _ _)
  · exact .inl rfl

theorem overwrites_visits {m m' : Marking}
    (h : lists.foldlM (Marking.visitAll? feed.chunk (passing split)) m = some m') :
    Overwrites (· ≤ split.maxGroup) m.grouping m'.grouping :=
  Marking.overwrites_foldlM
    (fun _ _ _ _ ht => Marking.overwrites_visitAll? (fun _ _ hy => passing_le hy) ht) h

/-- Both sides of a split are written. -/
theorem overwrites_split
    (h : (lists.foldlM (Marking.visitAll? feed.chunk (passing split)) (.start g numDocs) >>=
      fun m => m.finish? feed.chunk fun group =>
        if group = split.target then split.negative else group) = some g') :
    Overwrites (· ≤ split.maxGroup) g g' := by
  obtain ⟨m, hm, h⟩ := Option.bind_eq_some_iff.mp h
  exact (overwrites_visits hm).trans (Marking.overwrites_finish? (failing_le split) h)

theorem overwrites_splitBy? {docs : DocSet} (hlen : g.len ≤ maxId)
    (h : g.splitBy? docs split = some g') : Overwrites (· ≤ split.maxGroup) g g' := by
  refine (Grouping.moves_of_splitBy? hlen h).overwrites fun d x y _ hy => ?_
  cases hy
  split_ifs
  · exact .inr (Nat.le_max_right _ _)
  · exact .inr (Nat.le_max_left _ _)
  · exact .inl rfl

theorem regroups_splitByPostings (hg : g.WellFormed numDocs) (lists : List (List Nat))
    (split : Split) : Regroups numDocs (splitByPostings feed lists split) g := by
  refine regroups_makeRoom hg (ensures_scratch (regroups_change (hg.toRoomy.roomFor _) ?_)
    fun _ => hg.unmoved_roomFor _)
  exact fun g' hg' => (overwrites_split hg').mono fun x hx => Grouping.le_capacity_roomFor g hx

theorem regroups_splitByAny {τ : Type} [LT τ] [DecidableLT τ] [DecidableEq τ]
    (hg : g.WellFormed numDocs) (postings : Postings τ) (terms : List τ) (split : Split) :
    Regroups numDocs (splitByAny feed postings terms split) g :=
  regroups_unlessFilteredOut hg fun _ => regroups_splitByPostings hg _ split

theorem regroups_splitByQuery (hg : g.WellFormed numDocs) (rule : QueryRule) :
    Regroups numDocs (splitByQuery feed rule) g := by
  refine regroups_unlessFilteredOut hg fun _ => ensures_search (fun docs => ?_) fun _ => hg.unmoved
  refine regroups_makeRoom hg (regroups_change (hg.toRoomy.roomFor _) fun g' hg' => ?_)
  exact (overwrites_splitBy? (hg.roomFor _).len_le hg').mono
    fun x hx => Grouping.le_capacity_roomFor g hx

/-! ### When it goes through -/

theorem exists_split (hg : g.All g.Accepts) (hlen : numDocs = g.len)
    (hlists : ∀ list ∈ lists, ∀ d ∈ list, d < numDocs)
    (haccepts : ∀ x ≤ split.maxGroup, g.Accepts x) :
    ∃ g', (lists.foldlM (Marking.visitAll? feed.chunk (passing split)) (.start g numDocs) >>=
      fun m => m.finish? feed.chunk fun group =>
        if group = split.target then split.negative else group) = some g' := by
  obtain ⟨m, hm, hover⟩ := exists_foldlM_of (Marking.Over g) (Marking.over_start hlen)
    fun list hlist t ht => ht.exists_visitAll? feed.chunk
      (fun x y hy => haccepts y (passing_le hy)) fun d hd => hlen ▸ hlists list hlist d hd
  have hall : m.grouping.All g.Accepts :=
    ((overwrites_visits hm).mono haccepts).all hg
  obtain ⟨g', hg'⟩ := hover.exists_finish? feed.chunk hall
    fun x => (failing_le split x).imp_right (haccepts _)
  exact ⟨g', by rw [hm]; exact hg'⟩

/-- A split of postings that name existing documents goes through below the largest id. -/
theorem concludes_splitByPostings (hg : g.Counted feed.numDocs)
    (hlists : ∀ list ∈ lists, ∀ d ∈ list, d < feed.numDocs) :
    Concludes (splitByPostings feed lists split) g (fun _ g' => g.Grown g')
      (maxId ≤ split.maxGroup) := by
  refine completes_bind (completes_makeRoom hg ?_ fun _ => g.grown_refl)
  refine completes_scratch ?_ fun _ => g.grown_roomFor _
  refine concludes_rewrite hg (Nat.le_refl _) Nat.lt_of_not_le (fun g' hg' => overwrites_split hg')
    fun _ haccepts => ?_
  exact exists_split (hg.roomFor_accepts _) ((Grouping.len_roomFor g _).trans hg.len_eq).symm
    hlists haccepts

/-- The posting lists of some terms. -/
theorem mem_lists_of_terms {τ : Type} [LinearOrder τ] {postings : Postings τ} {numDocs : Nat}
    (hp : postings.Ascending numDocs) {terms : List τ} {list : List Nat} :
    list ∈ (distinctSorted terms).filterMap postings.find? ↔
      ∃ t ∈ terms, (t, list) ∈ postings.entries := by
  rw [List.mem_filterMap]
  exact exists_congr fun t => and_congr mem_distinctSorted (Postings.find?_eq_some hp.terms)

theorem concludes_splitByAny {τ : Type} [LinearOrder τ] {postings : Postings τ}
    (hg : g.Counted feed.numDocs) (hp : postings.Ascending feed.numDocs) (terms : List τ)
    (split : Split) :
    Concludes (splitByAny feed postings terms split) g (fun _ g' => g.Grown g')
      (maxId ≤ split.maxGroup) := by
  refine concludes_unlessFilteredOut hg fun _ => concludes_splitByPostings hg ?_
  intro list hlist
  obtain ⟨t, -, hentry⟩ := (mem_lists_of_terms hp).mp hlist
  exact hp.docs_lt _ hentry

/-- A query splits without a trace if it is refused: its set is claimed before the room. -/
theorem concludes_splitByQuery (hg : g.Counted feed.numDocs) (hs : feed.shard.Ascending)
    (rule : QueryRule) :
    Concludes (splitByQuery feed rule) g (fun _ g' => g' = g) (maxId ≤ rule.split.maxGroup) := by
  refine concludes_unlessFilteredOut hg fun _ => completes_search (fun docs _ _ _ => ?_)
    (fun _ => rfl) fun h => absurd hs h
  refine completes_bind (completes_makeRoom hg ?_ fun _ => rfl)
  refine concludes_rewrite hg (Nat.le_refl _) Nat.lt_of_not_le
    (fun g' hg' => overwrites_splitBy? (hg.roomFor _).len_le hg') fun _ haccepts => ?_
  exact Grouping.exists_splitBy? (haccepts _ (Nat.le_max_right _ _))
    (haccepts _ (Nat.le_max_left _ _))

end Cohort.Regroup
