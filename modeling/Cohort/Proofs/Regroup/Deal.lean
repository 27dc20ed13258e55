import Cohort.Proofs.Hash.Cuts
import Cohort.Proofs.Regroup.Feed
import Cohort.Regroup.Deal

/-!
# Random splits — what dealing out documents ensures, and when it goes through

Whatever the hash is, documents only go to groups that the deal names, and every hash has a bucket.
-/

namespace Cohort.Regroup

open Pass
open Grouping (Moves)

variable {feed : Feed} {g g' : Grouping} {numDocs : Nat} {hash : SaltedHash} {d : Deal}

theorem Deal.mem_of_groupFor? {h x : Nat} (hx : d.groupFor? h = some x) : x ∈ d.results :=
  List.mem_of_getElem? hx

/-- What a two-way split sends documents without a term to is one of its results. -/
theorem Deal.negative_mem_twoWay (split : Split) (p : Binary64) :
    ∀ x ∈ some split.negative, x ∈ (Deal.twoWay split p).results := by
  intro x hx
  cases hx
  exact List.mem_cons_self

/-- A deal that is set up has room for its groups. -/
theorem regroups_setUp {rest : Unit → Pass Nat} (hg : g.WellFormed numDocs)
    (h : Ensures (rest ()) (g.roomFor (d.results.foldl max 0))
      (fun n g' => g'.WellFormed numDocs ∧ g'.numGroups = n)
      (fun _ g' => g.Unmoved numDocs g')) :
    Regroups numDocs (d.setUp >>= rest) g := by
  refine ensures_bind (ensures_bind (ensures_orRefused (fun _ _ => ?_) fun _ => hg.unmoved))
  exact ensures_makeRoom hg.len_le h fun _ => hg.unmoved

theorem Deal.le_top {x : Nat} (hx : x ∈ d.results) : x ≤ d.results.foldl max 0 :=
  le_foldl_max 0 hx

/-- The visits of all lists, each with the group of its hash. -/
def dealVisits? (feed : Feed) (lists : List (Nat × List Nat)) (d : Deal) (m : Marking) :
    Option Marking :=
  lists.foldlM
    (fun (m : Marking) (hash, docs) => do
      let group ← d.groupFor? hash
      m.visitAll? feed.chunk (fun g => if g = d.target then some group else none) docs) m

/-- Documents that no list holds go to the fallback, if there is one. -/
def dealRest? (feed : Feed) (d : Deal) (unmatched : Option Nat) (m : Marking) :
    Option Grouping :=
  match unmatched with
  | none => some m.grouping
  | some fallback =>
    m.finish? feed.chunk fun group => if group = d.target then fallback else group

theorem overwrites_dealVisits? {lists : List (Nat × List Nat)} {m m' : Marking}
    (h : dealVisits? feed lists d m = some m') :
    m.grouping.Overwrites (· ∈ d.results) m'.grouping := by
  refine Marking.overwrites_foldlM (fun e _ t t' ht => ?_) h
  obtain ⟨x, hx, ht⟩ := Option.bind_eq_some_iff.mp ht
  refine Marking.overwrites_visitAll? (fun y z hz => ?_) ht
  split_ifs at hz
  cases hz
  exact Deal.mem_of_groupFor? hx

/-- Dealing by postings only writes groups of the deal. -/
theorem overwrites_deal {lists : List (Nat × List Nat)} {unmatched : Option Nat}
    (hu : ∀ x ∈ unmatched, x ∈ d.results)
    (h : (dealVisits? feed lists d (.start g feed.numDocs) >>= dealRest? feed d unmatched) =
      some g') : g.Overwrites (· ∈ d.results) g' := by
  obtain ⟨m, hm, h⟩ := Option.bind_eq_some_iff.mp h
  have hvisits := overwrites_dealVisits? hm
  cases unmatched with
  | none =>
    cases h
    exact hvisits
  | some fallback =>
    refine hvisits.trans (Marking.overwrites_finish? (fun x => ?_) h)
    split_ifs
    · exact .inr (hu fallback rfl)
    · exact .inl rfl

theorem regroups_dealByPostings (hg : g.WellFormed numDocs) (lists : List (Nat × List Nat))
    {unmatched : Option Nat} (hu : ∀ x ∈ unmatched, x ∈ d.results) :
    Regroups numDocs (dealByPostings feed lists d unmatched) g := by
  refine regroups_unlessFilteredOut hg fun _ => regroups_setUp hg ?_
  refine ensures_scratch (regroups_change (hg.toRoomy.roomFor _) fun g' hg' => ?_)
    fun _ => hg.unmoved_roomFor _
  exact (overwrites_deal hu hg').mono
    fun x hx => Grouping.le_capacity_roomFor g (Deal.le_top hx)

/-- The new group of a document that is dealt out by its value. -/
def Deal.ofValue? (d : Deal) (hash : SaltedHash) (values : ValueTable) (doc group : Nat) :
    Option Nat :=
  if group = d.target then (values.value? doc).bind fun v => d.groupFor? (hash.ofInt v)
  else some group

theorem moves_of_dealChunk? {values : ValueTable} {docs : List Nat} (hdocs : docs.Nodup)
    (hlt : ∀ doc ∈ docs, doc < g.len) (hg : dealChunk? hash d values g docs = some g') :
    Moves (d.ofValue? hash values) docs g g' := by
  obtain ⟨groups, hgroups, hg⟩ := Option.bind_eq_some_iff.mp hg
  rw [Grouping.groupsOf?_eq_mapM hlt] at hgroups
  by_cases ht : groups.contains d.target
  · rw [if_pos ht] at hg
    obtain ⟨vs, hvs, hg⟩ := Option.bind_eq_some_iff.mp hg
    obtain ⟨written, hwritten, hg⟩ := Option.bind_eq_some_iff.mp hg
    refine Moves.of_setAll? hdocs ?_ hg
    rw [← mapM_comp (mapM_pair hgroups hvs) hwritten]
    refine mapM_congr fun doc hdoc => ?_
    obtain ⟨x, -, hx⟩ := exists_of_mapM hgroups hdoc
    obtain ⟨v, -, hv⟩ := exists_of_mapM hvs hdoc
    simp only [hx, hv, Option.bind_some, Option.map_some, Deal.ofValue?]
  · rw [if_neg ht] at hg
    cases hg
    refine ⟨rfl, fun doc hdoc => ?_, fun _ _ => rfl⟩
    obtain ⟨x, hmem, hx⟩ := exists_of_mapM hgroups hdoc
    have hne : x ≠ d.target := by
      rintro rfl
      exact ht (List.contains_iff_mem.mpr hmem)
    rw [hx, Option.bind_some, Deal.ofValue?, if_neg hne]

/-- All chunks together move all documents. -/
theorem moves_of_dealChunks {values : ValueTable} {chunk : Nat}
    (h : (chunks (max 1 chunk) (List.range g.len)).foldlM (dealChunk? hash d values) g = some g') :
    Moves (d.ofValue? hash values) (List.range g.len) g g' :=
  Moves.of_chunks (by omega)
    (fun _ _ _ hc hlt hlen ht => moves_of_dealChunk? hc (hlen ▸ hlt) ht) h

/-- Dealing by values only writes groups of the deal. -/
theorem overwrites_dealChunks {values : ValueTable} {chunk : Nat}
    (h : (chunks (max 1 chunk) (List.range g.len)).foldlM (dealChunk? hash d values) g = some g') :
    g.Overwrites (· ∈ d.results) g' := by
  refine (moves_of_dealChunks h).overwrites fun doc x y _ hy => ?_
  unfold Deal.ofValue? at hy
  split_ifs at hy
  · obtain ⟨v, -, hy⟩ := Option.bind_eq_some_iff.mp hy
    exact .inr (Deal.mem_of_groupFor? hy)
  · cases hy
    exact .inl rfl

theorem regroups_dealByValues (hg : g.WellFormed numDocs) (hlen : feed.numDocs = numDocs)
    (values : ValueTable) : Regroups numDocs (dealByValues feed hash values d) g := by
  refine regroups_unlessFilteredOut hg fun _ => regroups_setUp hg ?_
  refine regroups_change (hg.toRoomy.roomFor _) fun g' hg' => ?_
  rw [hlen, ← (hg.toRoomy.roomFor (d.results.foldl max 0)).len_eq] at hg'
  exact (overwrites_dealChunks hg').mono
    fun x hx => Grouping.le_capacity_roomFor g (Deal.le_top hx)

/-! ### When it goes through -/

/-- The group of documents with a given hash, told by how many cuts are at or below it. -/
def Deal.groupOf? (d : Deal) (h : Nat) : Option Nat :=
  d.results[(d.fractions.map Binary64.timesTwoPow64).countP (· ≤ h)]?

/-- A deal that passed its check finds the group by counting cuts. -/
theorem Deal.groupFor?_eq {u : Unit} (hd : checkFractions d.fractions d.results = .ok u)
    (h : Nat) : d.groupFor? h = d.groupOf? h := by
  obtain ⟨-, hd⟩ := require_bind_ok hd
  unfold Deal.groupFor? Deal.groupOf?
  rw [HashCuts.bucketOf_eq hd]

/-- A deal that passed its check has a group for every hash. -/
theorem Deal.exists_groupFor? {u : Unit} (hd : checkFractions d.fractions d.results = .ok u)
    (h : Nat) : ∃ x ∈ d.results, d.groupFor? h = some x := by
  rw [Deal.groupFor?_eq hd]
  obtain ⟨hlen, -⟩ := require_bind_ok hd
  simp only [decide_eq_true_eq] at hlen
  have hle := List.countP_le_length (p := (decide <| · ≤ h))
    (l := d.fractions.map Binary64.timesTwoPow64)
  rw [List.length_map] at hle
  have hlt : (d.fractions.map Binary64.timesTwoPow64).countP (· ≤ h) < d.results.length := by omega
  exact ⟨_, List.getElem_mem hlt, List.getElem?_eq_getElem hlt⟩

theorem completes_setUp {α : Type} {rest : Unit → Pass α} {ok : α → Grouping → Prop}
    {refused : Error → Grouping → Prop} {broken : Prop} (hg : g.Counted numDocs)
    (hcheck : ∀ e, checkFractions d.fractions d.results = .error e → refused e g)
    (hmemory : ∀ s, refused (.outOfMemory s) g)
    (h : checkFractions d.fractions d.results = .ok () →
      Completes (rest ()) (g.roomFor (d.results.foldl max 0)) ok refused broken) :
    Completes (d.setUp >>= rest) g ok refused broken :=
  completes_bind (completes_bind (completes_orRefused
    (fun _ hd => completes_makeRoom hg (h hd) hmemory) hcheck))

/-- Where no result is the largest id, room for all of them is room that can be counted. -/
theorem Deal.top_lt (hb : ¬ ∃ x ∈ d.results, maxId ≤ x) : d.results.foldl max 0 < maxId :=
  foldl_max_lt (by decide) fun x hx => Nat.lt_of_not_le fun h => hb ⟨x, hx, h⟩

theorem exists_deal {u : Unit} {lists : List (Nat × List Nat)} {unmatched : Option Nat}
    (hd : checkFractions d.fractions d.results = .ok u) (hu : ∀ x ∈ unmatched, x ∈ d.results)
    (hlen : feed.numDocs = g.len) (hlists : ∀ e ∈ lists, ∀ doc ∈ e.2, doc < feed.numDocs)
    (hg : g.All g.Accepts) (haccepts : ∀ x ∈ d.results, g.Accepts x) :
    ∃ g', (dealVisits? feed lists d (.start g feed.numDocs) >>= dealRest? feed d unmatched) =
      some g' := by
  have hvisits : ∀ e ∈ lists, ∀ t : Marking, t.Over g → ∃ t', ((d.groupFor? e.1).bind fun group =>
      t.visitAll? feed.chunk (fun g => if g = d.target then some group else none) e.2) = some t' ∧
        t'.Over g := by
    intro e he t ht
    obtain ⟨x, hx, hgroup⟩ := d.exists_groupFor? hd e.1
    rw [hgroup, Option.bind_some]
    refine ht.exists_visitAll? feed.chunk (fun y z hz => ?_) fun doc hdoc => ?_
    · split_ifs at hz
      cases hz
      exact haccepts x hx
    · exact hlen ▸ hlists e he doc hdoc
  obtain ⟨m, hm, hover⟩ := exists_foldlM_of (Marking.Over g) (Marking.over_start hlen) hvisits
  replace hm : dealVisits? feed lists d (.start g feed.numDocs) = some m := hm
  rw [hm]
  cases unmatched with
  | none => exact ⟨m.grouping, rfl⟩
  | some fallback =>
    have hall := ((overwrites_dealVisits? hm).mono haccepts).all hg
    show ∃ g', m.finish? feed.chunk (fun x => if x = d.target then fallback else x) = some g'
    refine hover.exists_finish? feed.chunk hall fun x => ?_
    split_ifs
    · exact .inr (haccepts fallback (hu fallback rfl))
    · exact .inl rfl

theorem concludes_dealByPostings (hg : g.Counted feed.numDocs) {lists : List (Nat × List Nat)}
    (hlists : ∀ e ∈ lists, ∀ doc ∈ e.2, doc < feed.numDocs) {unmatched : Option Nat}
    (hu : ∀ x ∈ unmatched, x ∈ d.results) :
    Concludes (dealByPostings feed lists d unmatched) g (fun _ g' => g.Grown g')
      (∃ x ∈ d.results, maxId ≤ x) := by
  refine concludes_unlessFilteredOut hg fun _ => ?_
  refine completes_setUp hg (fun _ _ => g.grown_refl) (fun _ => g.grown_refl) fun hd => ?_
  refine completes_scratch ?_ fun _ => g.grown_roomFor _
  refine concludes_rewrite hg (Nat.le_refl _) Deal.top_lt
    (fun g' hg' => (overwrites_deal hu hg').mono fun _ => Deal.le_top) fun _ haccepts => ?_
  exact exists_deal hd hu ((Grouping.len_roomFor g _).trans hg.len_eq).symm hlists
    (hg.roomFor_accepts _) fun x hx => haccepts x (Deal.le_top hx)

/-- The posting lists of a field name documents that exist. -/
theorem lt_numDocs_of_mem_hashedPostings {shard : Shard} (hs : shard.Ascending) {field : String}
    {isInt : Bool} {e : Nat × List Nat} (he : e ∈ hashedPostings shard hash field isInt) :
    ∀ doc ∈ e.2, doc < shard.numDocs := by
  unfold hashedPostings at he
  split_ifs at he
  · obtain ⟨p, hp, rfl⟩ := List.mem_map.mp he
    exact (hs.intPostings field).docs_lt p hp
  · obtain ⟨p, hp, rfl⟩ := List.mem_map.mp he
    exact (hs.stringPostings field).docs_lt p hp

/-! ### Dealing by values -/

/-- A chunk that holds no document of the target is not rewritten, which is as good as writing every
group back. -/
theorem dealChunk?_eq {values : ValueTable} {docs : List Nat} (hdocs : docs.Nodup)
    (hlt : ∀ doc ∈ docs, doc < g.len) (hg : g.All g.Accepts) (hcovers : values.Covers g.len) :
    dealChunk? hash d values g docs = docs.foldlM (Grouping.move? (d.ofValue? hash values)) g := by
  obtain ⟨groups, hgroups⟩ := exists_mapM fun doc hdoc => Grouping.get?_of_lt_len (hlt doc hdoc)
  unfold dealChunk?
  rw [Grouping.groupsOf?_eq_mapM hlt, hgroups]
  show (if groups.contains d.target then _ else some g) = _
  by_cases ht : groups.contains d.target
  · -- the chunk is written in one go, with the old group for a document outside the target
    have hwritten : ((docs.mapM values.value?).bind fun vs => (groups.zip vs).mapM fun p =>
        if p.1 = d.target then d.groupFor? (hash.ofInt p.2) else some p.1) =
          docs.mapM fun doc => (g.get? doc).bind (d.ofValue? hash values doc) := by
      have hzip := mapM_bind_zip (f := g.get?) (g := values.value?) docs fun ps => ps.mapM fun p =>
        if p.1 = d.target then d.groupFor? (hash.ofInt p.2) else some p.1
      rw [hgroups, Option.bind_some, mapM_bind] at hzip
      rw [hzip]
      refine mapM_congr fun doc hdoc => ?_
      obtain ⟨x, hx⟩ := Grouping.get?_of_lt_len (hlt doc hdoc)
      obtain ⟨v, hv⟩ := hcovers.exists_value? (hlt doc hdoc)
      simp [hx, hv, Deal.ofValue?]
    rw [if_pos ht, ← Grouping.mapM_setAll? hdocs, ← hwritten, Option.bind_assoc]
    rfl
  · rw [if_neg ht]
    refine (foldlM_fixed fun doc hdoc => ?_).symm
    obtain ⟨x, hmem, hx⟩ := exists_of_mapM hgroups hdoc
    have hne : x ≠ d.target := by
      rintro rfl
      exact ht (List.contains_iff_mem.mpr hmem)
    have hset := Grouping.set?_self hx (hg doc x hx)
    simp [Grouping.move?, hx, Deal.ofValue?, hne, hset]

/-- The chunk size of a deal by values does not matter if no value is missing. -/
theorem dealChunks_eq {values : ValueTable} {chunk : Nat} (hg : g.All g.Accepts)
    (hcovers : values.Covers g.len) :
    (chunks (max 1 chunk) (List.range g.len)).foldlM (dealChunk? hash d values) g =
      (List.range g.len).foldlM (Grouping.move? (d.ofValue? hash values)) g := by
  refine Grouping.foldlM_chunks_move? (fun t => t.All t.Accepts) hg (by omega) ?_ ?_
  · intro doc t t' ht hmove e x hx
    obtain ⟨y, z, hy, -, hs⟩ := Grouping.move?_eq_some hmove
    obtain ⟨s, rfl, -⟩ := ht doc y hy
    have hframe := Grouping.frame_set? hs
    rw [Grouping.get?_set? hs] at hx
    split_ifs at hx
    · obtain ⟨w, -, rfl⟩ := Option.map_eq_some_iff.mp hx
      exact (Grouping.accepts_of_set? hs).of_frame hframe
    · exact (ht e x hx).of_frame hframe
  · intro c t hc hlt hlen ht
    exact dealChunk?_eq hc (hlen ▸ hlt) ht (hlen ▸ hcovers)

theorem exists_dealChunks {u : Unit} {values : ValueTable} {chunk : Nat}
    (hd : checkFractions d.fractions d.results = .ok u) (hg : g.All g.Accepts)
    (haccepts : ∀ x ∈ d.results, g.Accepts x) (hcovers : values.Covers g.len) :
    ∃ g', (chunks (max 1 chunk) (List.range g.len)).foldlM (dealChunk? hash d values) g =
      some g' := by
  rw [dealChunks_eq hg hcovers]
  refine Grouping.exists_moves List.nodup_range (fun _ h => List.mem_range.mp h) ?_
  intro doc hdoc x hx
  obtain ⟨v, hv⟩ := hcovers.exists_value? (List.mem_range.mp hdoc)
  obtain ⟨y, hy, hgroup⟩ := d.exists_groupFor? hd (hash.ofInt v)
  unfold Deal.ofValue?
  split_ifs
  · exact ⟨y, by rw [hv, Option.bind_some, hgroup], haccepts y hy⟩
  · exact ⟨x, rfl, hg doc x hx⟩

/-- A deal by values goes through if no value is missing. Its room is the last claim. -/
theorem concludes_dealByValues (hg : g.Counted feed.numDocs) (values : ValueTable) :
    Concludes (dealByValues feed hash values d) g (fun _ g' => g' = g)
      ((∃ x ∈ d.results, maxId ≤ x) ∨ ¬ values.Covers feed.numDocs) := by
  refine concludes_unlessFilteredOut hg fun _ =>
    completes_setUp hg (fun _ _ => rfl) (fun _ => rfl) fun hd => ?_
  have hlen := (Grouping.len_roomFor g (d.results.foldl max 0)).trans hg.len_eq
  rw [← hlen]
  refine concludes_rewrite hg (Nat.le_refl _) (fun hb => Deal.top_lt fun h => hb (.inl h))
    (fun g' hg' => (overwrites_dealChunks hg').mono fun _ => Deal.le_top) fun hb haccepts => ?_
  rw [not_or, not_not] at hb
  exact exists_dealChunks hd (hg.roomFor_accepts _) (fun x hx => haccepts x (Deal.le_top hx)) hb.2

end Cohort.Regroup
