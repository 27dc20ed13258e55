import Cohort.Proofs.Regroup.Rearrange
import Cohort.Proofs.Regroup.Split
import Cohort.Proofs.Regroup.Visits

/-!
# Split meaning — two ways to split a group that come to the same

Terms are split by visiting their documents and writing them on the way, after which a second pass
sends on what is left of the target. A query is answered first, and then all documents are written
in one pass. Either way a document of the target goes where it passes or fails by itself, even if it
is written to the target again. The two only differ in the memory that they need on the way.
-/

namespace Cohort

/-- Where a split sends a document of `group`, by whether it is one of those that pass. -/
def Split.destination (split : Split) (passes : Nat → Bool) (doc group : Nat) : Nat :=
  if group = split.target then if passes doc then split.positive else split.negative else group

theorem Split.destination_other (split : Split) {group : Nat} (hgroup : group ≠ split.target)
    (passes : Nat → Bool) (doc : Nat) : split.destination passes doc group = group :=
  if_neg hgroup

namespace Regroup

open Pass
open Grouping (Moves)

variable {feed : Feed} {g g' : Grouping} {numDocs n : Nat} {lists : List (List Nat)} {split : Split}
  {passes : Nat → Bool}

/-- `g'` is `g` after all documents were sent to their destinations; it has `n` groups. -/
abbrev Divided (split : Split) (passes : Nat → Bool) : Grouping → Nat → Grouping → Prop :=
  Rearranged (split.destination passes)

/-- Some group that the split leads to is no id that can be counted. -/
abbrev Overflows (split : Split) (passes : Nat → Bool) : Grouping → Prop :=
  Overruns (maxId < split.maxGroup) (split.destination passes)

/-- How a split of `g` ends: all documents are where they are sent, or it was refused for lack of
memory, or a check broke because it overflows. -/
abbrev Splits (split : Split) (passes : Nat → Bool) : Pass Nat → Grouping → Prop :=
  Rearranges (fun e => ∃ s, e = .outOfMemory s) (maxId < split.maxGroup)
    (split.destination passes)

/-! ### Terms -/

/-- The documents that are visited, in order. -/
def visitsOf (lists : List (List Nat)) (split : Split) : List (Nat × (Nat → Option Nat)) :=
  lists.flatMap fun list => list.map (·, passing split)

theorem offer?_visitsOf (split : Split) {d : Nat}
    (hpasses : (∃ list ∈ lists, d ∈ list) ↔ passes d = true) (x : Nat) :
    Marking.offer? (visitsOf lists split) d x =
      if x = split.target ∧ passes d = true then some split.positive else none := by
  have hmem : ∀ v, v ∈ visitsOf lists split ↔
      (∃ list ∈ lists, v.1 ∈ list) ∧ v.2 = passing split := by
    rintro ⟨e, f⟩
    unfold visitsOf
    simp only [List.mem_flatMap, List.mem_map, Prod.mk.injEq]
    constructor
    · rintro ⟨list, hlist, e, he, rfl, rfl⟩
      exact ⟨⟨list, hlist, he⟩, rfl⟩
    · rintro ⟨⟨list, hlist, he⟩, rfl⟩
      exact ⟨list, hlist, e, he, rfl, rfl⟩
  refine Marking.offer?_eq_of_all (fun v hv _ z hz => ?_) ?_
  · rw [((hmem v).mp hv).2] at hz
    unfold passing at hz
    split_ifs at hz
    exact (Option.some.inj hz).symm
  · rw [← hpasses]
    constructor
    · rintro ⟨v, hv, rfl, hsome⟩
      obtain ⟨hlist, hv⟩ := (hmem v).mp hv
      rw [hv] at hsome
      unfold passing at hsome
      split_ifs at hsome with hx
      · exact ⟨hx, hlist⟩
      · cases hsome
    · rintro ⟨hx, hlist⟩
      refine ⟨(d, passing split), (hmem _).mpr ⟨hlist, rfl⟩, rfl, ?_⟩
      show (passing split x).isSome = true
      unfold passing
      rw [if_pos hx]
      rfl

/-- After both passes every document is where it belongs. -/
theorem get?_split (hchunk : 0 < feed.chunk)
    (hpasses : ∀ d, (∃ list ∈ lists, d ∈ list) ↔ passes d = true)
    (h : (lists.foldlM (Marking.visitAll? feed.chunk (passing split)) (.start g numDocs) >>=
      fun m => m.finish? feed.chunk fun group =>
        if group = split.target then split.negative else group) = some g') {d x : Nat}
    (hx : g.get? d = some x) : g'.get? d = some (split.destination passes d x) := by
  obtain ⟨m, hm, h⟩ := Option.bind_eq_some_iff.mp h
  have hrun : (visitsOf lists split).foldlM Marking.visitAt (.start g numDocs) = some m := by
    unfold visitsOf
    rw [foldlM_flatMap, ← hm]
    refine foldlM_ext (fun list _ t => ?_) _
    rw [Marking.visitAll?_eq hchunk, List.foldlM_map]
    rfl
  rw [(Marking.Marked.run hrun).get?_finish? h hx, offer?_visitsOf split (hpasses d)]
  unfold Split.destination
  by_cases htarget : x = split.target
  · by_cases hpass : passes d = true
    · simp [htarget, hpass]
    · simp [htarget, hpass]
  · simp [htarget]

/-- Splitting by posting lists sends the documents on them to the positive side. -/
theorem completes_splitByPostings (hg : g.Counted feed.numDocs) (hchunk : 0 < feed.chunk)
    (hlists : ∀ list ∈ lists, ∀ d ∈ list, d < feed.numDocs)
    (hpasses : ∀ d, (∃ list ∈ lists, d ∈ list) ↔ passes d = true) :
    Completes (splitByPostings feed lists split) g (Divided split passes g)
      (fun e _ => ∃ s, e = .outOfMemory s) (Overflows split passes g) := by
  refine completes_bind (completes_makeRoom hg ?_ fun s => ⟨s, rfl⟩)
  refine completes_scratch ?_ fun s => ⟨s, rfl⟩
  refine completes_rearrange hg id (fun g' hg' => (overwrites_split hg').frame_eq)
    (fun g' hg' d x hx => ?_) fun _ haccepts => ?_
  · exact get?_split hchunk hpasses hg' ((Grouping.get?_roomFor g _ d).trans hx)
  · exact exists_split (hg.roomFor_accepts _)
      ((Grouping.len_roomFor g _).trans hg.len_eq).symm hlists haccepts

/-- Splitting by terms sends the documents that hold one of them to the positive side. -/
theorem splits_byAny {τ : Type} [LinearOrder τ] {postings : Postings τ}
    (hg : g.Counted feed.numDocs) (hp : postings.Ascending feed.numDocs)
    (hchunk : 0 < feed.chunk) (terms : List τ) (split : Split) :
    Splits split (fun d => terms.any ((postings.valuesOf d).contains ·))
      (splitByAny feed postings terms split) g := by
  refine rearranges_unlessFilteredOut fun _ => completes_splitByPostings hg hchunk
    (fun list hlist => ?_) fun d => ?_
  · obtain ⟨t, -, hentry⟩ := (mem_lists_of_terms hp).mp hlist
    exact hp.docs_lt _ hentry
  · simp only [mem_lists_of_terms hp, List.any_eq_true, List.contains_iff_mem,
      Postings.mem_valuesOf]
    constructor
    · rintro ⟨list, ⟨t, ht, hlist⟩, hd⟩
      exact ⟨t, ht, list, hlist, hd⟩
    · rintro ⟨t, ht, list, hlist, hd⟩
      exact ⟨list, ⟨t, ht, hlist⟩, hd⟩

/-- Splitting by a condition on terms sends the documents with such a term to the positive side. -/
theorem splits_byValue {τ : Type} [LinearOrder τ] {postings : Postings τ}
    (hg : g.Counted feed.numDocs) (hp : postings.Ascending feed.numDocs) (hchunk : 0 < feed.chunk)
    (p : τ → Bool) (split : Split) :
    Splits split (fun d => (postings.valuesOf d).any p)
      (unlessFilteredOut fun _ =>
        splitByPostings feed ((postings.entries.filter fun e => p e.1).map (·.2)) split) g := by
  refine rearranges_unlessFilteredOut fun _ => completes_splitByPostings hg hchunk
    (fun list hlist => ?_) fun d => ?_
  · obtain ⟨e, he, rfl⟩ := List.mem_map.mp hlist
    exact hp.docs_lt e (List.mem_filter.mp he).1
  · simp only [List.mem_map, List.mem_filter, List.any_eq_true, Postings.mem_valuesOf]
    constructor
    · rintro ⟨_, ⟨⟨t, list⟩, ⟨he, ht⟩, rfl⟩, hd⟩
      exact ⟨t, ⟨list, he, hd⟩, ht⟩
    · rintro ⟨t, ⟨list, he, hd⟩, ht⟩
      exact ⟨list, ⟨(t, list), ⟨he, ht⟩, rfl⟩, hd⟩

/-! ### Queries -/

/-- Splitting by a query sends the documents that it selects to the positive side. -/
theorem splits_byQuery (hg : g.Counted feed.numDocs) (hs : feed.shard.Ascending)
    (rule : QueryRule) :
    Splits rule.split (fun d => rule.query.satisfies feed.shard d) (splitByQuery feed rule) g := by
  refine rearranges_unlessFilteredOut fun _ => completes_search (fun docs l l' hrun => ?_)
    (fun s => ⟨s, rfl⟩) fun h => absurd hs h
  have hfound := (Query.search_yields hs rule.query l).ok_of hrun
  refine completes_bind (completes_makeRoom hg ?_ fun s => ⟨s, rfl⟩)
  have hlen := (hg.roomFor (max rule.negative rule.positive)).len_le
  refine completes_rearrange hg id (fun g' hg' => (overwrites_splitBy? hlen hg').frame_eq)
    (fun g' hg' d x hx => ?_) fun _ haccepts =>
      Grouping.exists_splitBy? (haccepts _ (Nat.le_max_right _ _))
        (haccepts _ (Nat.le_max_left _ _))
  have hd : d < feed.numDocs := hg.len_eq ▸ Grouping.lt_len_of_get? hx
  rw [(Grouping.moves_of_splitBy? hlen hg').get?, Grouping.get?_roomFor, hx, Option.bind_some,
    hfound.contains_eq d hd]
  rfl

end Regroup

end Cohort
