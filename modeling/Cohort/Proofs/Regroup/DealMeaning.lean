import Cohort.Proofs.Regroup.Deal
import Cohort.Proofs.Regroup.Rearrange
import Cohort.Proofs.Regroup.Visits
import Cohort.Proofs.Shard.Postings

/-!
# Deal meaning — where a random split sends every document

Dealing by terms writes groups while later terms still read them, yet only the first term that a
document holds counts, and terms come in ascending order: the document goes where the hash of its
smallest value belongs. Dealing by values looks at documents instead. Both are told by the hash that
they take a document for, so they come to the same where these hashes are the same.
-/

namespace Cohort

/-- The hash of the smallest value that a document holds in a field, if it holds any. -/
def SaltedHash.ofLeast? (hash : SaltedHash) (shard : Shard) (field : String) (isInt : Bool)
    (doc : Nat) : Option Nat :=
  if isInt then (shard.intValues field doc).min?.map hash.ofInt
  else (shard.stringValues field doc).min?.map hash.ofString

namespace Regroup

open Pass

variable {feed : Feed} {g g' : Grouping} {hash : SaltedHash} {d : Deal}
  {lists : List (Nat × List Nat)} {unmatched : Option Nat} {doc group : Nat}

/-- Where a document of `group` goes whose hash is `hashOf doc`: to the group of its hash, if it is
in the target. Without a hash it goes to `unmatched`, or stays. -/
def Deal.destination (d : Deal) (unmatched : Option Nat) (hashOf : Nat → Option Nat)
    (doc group : Nat) : Nat :=
  if group = d.target then
    match hashOf doc with
    | some h => (d.groupOf? h).getD group
    | none => unmatched.getD group
  else group

/-- How a deal may be refused: for its fractions, or for lack of memory. -/
def Deal.Refused (d : Deal) (e : Error) : Prop :=
  (∃ s, e = .outOfMemory s) ∨ checkFractions d.fractions d.results = .error e

theorem Deal.Refused.memory {e : Error} {u : Unit} (he : d.Refused e)
    (hd : checkFractions d.fractions d.results = .ok u) : ∃ s, e = .outOfMemory s := by
  rcases he with he | he
  · exact he
  · cases hd.symm.trans he

theorem Deal.exists_groupOf? {u : Unit} (hd : checkFractions d.fractions d.results = .ok u)
    (h : Nat) : ∃ x ∈ d.results, d.groupOf? h = some x :=
  d.groupFor?_eq hd h ▸ d.exists_groupFor? hd h

theorem Deal.destination_other (hgroup : group ≠ d.target) (unmatched : Option Nat)
    (hashOf : Nat → Option Nat) (doc : Nat) :
    d.destination unmatched hashOf doc group = group :=
  if_neg hgroup

theorem Deal.destination_of_some {hashOf : Nat → Option Nat} {h : Nat}
    (hdoc : hashOf doc = some h) (unmatched : Option Nat) :
    d.destination unmatched hashOf doc d.target = (d.groupOf? h).getD d.target := by
  unfold Deal.destination
  rw [if_pos rfl, hdoc]

theorem Deal.destination_of_none {hashOf : Nat → Option Nat} (hdoc : hashOf doc = none)
    (unmatched : Option Nat) :
    d.destination unmatched hashOf doc d.target = unmatched.getD d.target := by
  unfold Deal.destination
  rw [if_pos rfl, hdoc]

/-- Only the hashes of the target's documents count. -/
theorem Deal.destination_congr {hashOf hashOf' : Nat → Option Nat} (unmatched : Option Nat)
    (h : group = d.target → hashOf doc = hashOf' doc) :
    d.destination unmatched hashOf doc group = d.destination unmatched hashOf' doc group := by
  unfold Deal.destination
  split_ifs with htarget
  · rw [h htarget]
  · rfl

/-- A document of the target that has a hash is offered a group; what is left is sent on. -/
theorem Deal.destination_eq (hd : ∀ h, ∃ x ∈ d.results, d.groupOf? h = some x)
    (unmatched : Option Nat) (hashOf : Nat → Option Nat) (doc group : Nat) :
    d.destination unmatched hashOf doc group =
      (if group = d.target then (hashOf doc).bind d.groupOf? else none).getD
        (if group = d.target then unmatched.getD group else group) := by
  by_cases htarget : group = d.target
  · subst htarget
    rw [if_pos rfl, if_pos rfl]
    cases hh : hashOf doc with
    | none => exact Deal.destination_of_none hh unmatched
    | some h =>
      obtain ⟨x, -, hx⟩ := hd h
      rw [Deal.destination_of_some hh, Option.bind_some, hx, Option.getD_some, Option.getD_some]
  · rw [Deal.destination_other htarget, if_neg htarget, if_neg htarget, Option.getD_none]

/-! ### Dealing by postings -/

/-- The hash of the first list that has the document. -/
def firstHash? (lists : List (Nat × List Nat)) (doc : Nat) : Option Nat :=
  (lists.find? (·.2.contains doc)).map (·.1)

/-- The documents that are visited, in order. -/
def dealtVisits (lists : List (Nat × List Nat)) (d : Deal) : List (Nat × (Nat → Option Nat)) :=
  lists.flatMap fun e => e.2.map (·, fun x => if x = d.target then d.groupOf? e.1 else none)

theorem offer?_map (docs : List Nat) (f : Nat → Option Nat) :
    Marking.offer? (docs.map (·, f)) doc group = if doc ∈ docs then f group else none := by
  unfold Marking.offer?
  rw [List.findSome?_map]
  induction docs with
  | nil => rfl
  | cons e docs ih =>
    rw [List.findSome?_cons, ih]
    by_cases he : e = doc
    · cases hf : f group <;> simp [he, hf]
    · simp [he, Ne.symm he]

/-- The first list that has the document is the one that counts. -/
theorem offer?_dealtVisits (hd : ∀ h, ∃ x ∈ d.results, d.groupOf? h = some x) :
    Marking.offer? (dealtVisits lists d) doc group =
      if group = d.target then (firstHash? lists doc).bind d.groupOf? else none := by
  induction lists with
  | nil => split_ifs <;> rfl
  | cons e lists ih =>
    have happend : Marking.offer? (dealtVisits (e :: lists) d) doc group =
        (if doc ∈ e.2 then if group = d.target then d.groupOf? e.1 else none else none).or
          (Marking.offer? (dealtVisits lists d) doc group) := by
      rw [← offer?_map e.2 fun x => if x = d.target then d.groupOf? e.1 else none]
      exact List.findSome?_append
    rw [happend, ih]
    unfold firstHash?
    obtain ⟨y, -, hy⟩ := hd e.1
    by_cases hdoc : doc ∈ e.2
    · rw [List.find?_cons, List.contains_iff_mem.mpr hdoc, if_pos hdoc]
      split_ifs
      · rw [Option.map_some, Option.bind_some, hy, Option.some_or]
      · rfl
    · have hout : e.2.contains doc = false := by simpa using hdoc
      rw [List.find?_cons, hout, if_neg hdoc, Option.none_or]

/-- After all visits every document is where it belongs. -/
theorem get?_deal (hchunk : 0 < feed.chunk) {u : Unit}
    (hd : checkFractions d.fractions d.results = .ok u)
    (h : (dealVisits? feed lists d (.start g feed.numDocs) >>= dealRest? feed d unmatched) =
      some g') (hx : g.get? doc = some group) :
    g'.get? doc = some (d.destination unmatched (firstHash? lists) doc group) := by
  have hgroups := d.exists_groupOf? hd
  obtain ⟨m, hm, h⟩ := Option.bind_eq_some_iff.mp h
  have hrun : (dealtVisits lists d).foldlM Marking.visitAt (.start g feed.numDocs) = some m := by
    unfold dealtVisits
    rw [foldlM_flatMap, ← hm]
    refine foldlM_ext ?_ _
    rintro ⟨h, docs⟩ - t
    obtain ⟨y, -, hy⟩ := hgroups h
    rw [List.foldlM_map]
    simp only [d.groupFor?_eq hd, hy, Option.bind_eq_bind, Option.bind_some,
      Marking.visitAll?_eq hchunk]
    rfl
  have hmarked := Marking.Marked.run hrun
  rw [d.destination_eq hgroups, ← offer?_dealtVisits hgroups]
  cases unmatched with
  | none =>
    cases h
    rw [hmarked.get?_eq doc group hx, Option.getD_none, ite_self]
  | some fallback =>
    rw [hmarked.get?_finish? h hx, Option.getD_some]

theorem rearranges_dealByPostings (hg : g.Counted feed.numDocs) (hchunk : 0 < feed.chunk)
    (hlists : ∀ e ∈ lists, ∀ doc ∈ e.2, doc < feed.numDocs)
    (hu : ∀ x ∈ unmatched, x ∈ d.results) :
    Rearranges d.Refused (maxId < d.results.foldl max 0)
      (d.destination unmatched (firstHash? lists)) (dealByPostings feed lists d unmatched) g := by
  refine rearranges_unlessFilteredOut fun _ => completes_setUp hg (fun _ he => .inr he)
    (fun s => .inl ⟨s, rfl⟩) fun hd => completes_scratch ?_ fun s => .inl ⟨s, rfl⟩
  refine completes_rearrange hg id (fun g' hg' => (overwrites_deal hu hg').frame_eq)
    (fun g' hg' doc x hx => get?_deal hchunk hd hg' ((Grouping.get?_roomFor g _ doc).trans hx))
    fun _ haccepts => ?_
  exact exists_deal hd hu ((Grouping.len_roomFor g _).trans hg.len_eq).symm hlists
    (hg.roomFor_accepts _) fun x hx => haccepts x (Deal.le_top hx)

/-- The first posting list that has a document is that of its smallest value. -/
theorem firstHash?_postings {τ : Type} [LinearOrder τ] {p : Postings τ} {numDocs : Nat}
    (hp : p.Ascending numDocs) (h : τ → Nat) (doc : Nat) :
    firstHash? (p.entries.map fun e => (h e.1, e.2)) doc = (p.valuesOf doc).min?.map h := by
  have hsorted : (p.valuesOf doc).Pairwise fun a b => min a b = a :=
    (hp.pairwise_valuesOf doc).imp fun hlt => min_eq_left (le_of_lt hlt)
  rw [List.min?_eq_head? hsorted]
  unfold firstHash? Postings.valuesOf
  rw [List.find?_map, List.head?_map, List.head?_filter, Option.map_map, Option.map_map]
  rfl

/-- Dealing by the terms of a field goes by the smallest value of every document. -/
theorem rearranges_dealByField (hg : g.Counted feed.numDocs) (hs : feed.shard.Ascending)
    (hchunk : 0 < feed.chunk) (field : String) (isInt : Bool)
    (hu : ∀ x ∈ unmatched, x ∈ d.results) :
    Rearranges d.Refused (maxId < d.results.foldl max 0)
      (d.destination unmatched (hash.ofLeast? feed.shard field isInt))
      (dealByField feed hash field isInt d unmatched) g := by
  have hfirst : firstHash? (hashedPostings feed.shard hash field isInt) =
      hash.ofLeast? feed.shard field isInt := by
    funext doc
    cases isInt with
    | true => exact firstHash?_postings (hs.intPostings field) hash.ofInt doc
    | false => exact firstHash?_postings (hs.stringPostings field) hash.ofString doc
  rw [← hfirst]
  exact rearranges_dealByPostings hg hchunk
    (fun e he => lt_numDocs_of_mem_hashedPostings hs he) hu

/-! ### Dealing by values -/

/-- A deal by values goes by the value of every document. If it goes through no document of the
target is without one, so it makes no difference where such a document would be sent. It breaks at a
missing value only if that is looked up, with some document of the target in the chunk. -/
theorem rearranges_dealByValues (hg : g.Counted feed.numDocs) (values : ValueTable)
    (fallback : Option Nat) :
    Rearranges d.Refused (maxId < d.results.foldl max 0 ∨ ¬ values.Covers feed.numDocs)
      (d.destination fallback fun doc => (values.value? doc).map hash.ofInt)
      (dealByValues feed hash values d) g := by
  refine rearranges_unlessFilteredOut fun _ => completes_setUp hg (fun _ he => .inr he)
    (fun s => .inl ⟨s, rfl⟩) fun hd => ?_
  have hlen := (Grouping.len_roomFor g (d.results.foldl max 0)).trans hg.len_eq
  rw [← hlen]
  refine completes_rearrange hg .inl (fun g' hg' => (overwrites_dealChunks hg').frame_eq)
    (fun g' hg' doc x hx => ?_) fun hexcuse haccepts => ?_
  · -- a document that was moved has a group, so its value was found
    obtain ⟨y, hmoved, hy⟩ := (moves_of_dealChunks hg').exists_moved
      ((Grouping.get?_roomFor g _ doc).trans hx)
    rw [hy]
    unfold Deal.ofValue? at hmoved
    by_cases htarget : x = d.target
    · subst htarget
      rw [if_pos rfl] at hmoved
      obtain ⟨v, hv, hgroup⟩ := Option.bind_eq_some_iff.mp hmoved
      rw [d.groupFor?_eq hd] at hgroup
      rw [Deal.destination_of_some (congrArg (Option.map hash.ofInt) hv), hgroup, Option.getD_some]
    · rw [if_neg htarget] at hmoved
      rw [Deal.destination_other htarget, hmoved]
  · rw [not_or, not_not] at hexcuse
    exact exists_dealChunks hd (hg.roomFor_accepts _) (fun x hx => haccepts x (Deal.le_top hx))
      hexcuse.2

end Regroup

end Cohort
