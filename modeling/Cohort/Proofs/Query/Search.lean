import Cohort.Proofs.DocSet
import Cohort.Proofs.Memory.Footing
import Cohort.Proofs.Shard
import Cohort.Query.Search

/-!
# Searches — what a search leaves claimed, and that it cannot break

Whatever the query, a search that succeeds keeps the bytes of one document set and a search that is
refused keeps none. All sets of a search are over the documents of the shard, and on ascending
shards the posting lists name no others. What a search finds does not depend on the ledger.
-/

namespace Cohort

/-! ### Sets over the same documents -/

namespace DocSet

variable {s t : DocSet} {docs : List Nat}

/-- The size of the buffer does not matter. -/
theorem mark?_eq (s : DocSet) (docs : List Nat) : s.mark? docs = docs.foldlM insert? s :=
  drain_foldlM (by decide) _ _ _

theorem len_mark? (h : s.mark? docs = some t) : t.len = s.len := by
  rw [mark?_eq] at h
  exact foldlM_relates (R := fun s t : DocSet => t.len = s.len) (fun _ => rfl)
    (fun _ _ _ h1 h2 => h2.trans h1) (fun d _ u v hv => len_insert? hv) h

theorem exists_mark? (hdocs : ∀ d ∈ docs, d < s.len) : ∃ t, s.mark? docs = some t := by
  rw [mark?_eq]
  obtain ⟨t, ht, -⟩ := exists_foldlM_of (fun u : DocSet => u.len = s.len) rfl fun d hd u hu => by
    obtain ⟨v, hv⟩ := exists_insert? (hu.symm ▸ hdocs d hd)
    exact ⟨v, hv, (len_insert? hv).trans hu⟩
  exact ⟨t, ht⟩

/-- Marking a posting list adds its documents. -/
theorem Comprises.mark? {n : Nat} {p : Nat → Bool} (hs : s.Comprises n p)
    (h : s.mark? docs = some t) : t.Comprises n fun i => p i || docs.contains i := by
  rw [mark?_eq] at h
  refine foldlM_induct (fun done t => t.Comprises n fun i => p i || done.contains i)
    (hs.congr fun i _ => (Bool.or_false _).symm) ?_ h
  intro done d rest u v _ hu hv
  refine (hu.insert? hv).congr fun i _ => ?_
  rw [List.contains_append, Bool.or_assoc]
  congr 2
  simp

end DocSet

namespace Query

open Memory Memory.Charge

variable {shard : Shard}

/-! ### Posting lists -/

theorem mem_of_mem_termsBetween {τ : Type} [LT τ] [DecidableLT τ] [DecidableEq τ]
    {p : Postings τ} {min max : τ} {inclusive : Bool} {e : τ × List Nat}
    (he : e ∈ termsBetween p min max inclusive) : e ∈ p.entries :=
  (List.dropWhile_sublist _).mem ((List.takeWhile_sublist _).mem he)

theorem lt_numDocs_of_mem_postingLists (hs : shard.Ascending) {q : Query} {docs : List Nat}
    (hdocs : docs ∈ postingLists shard q) : ∀ d ∈ docs, d < shard.numDocs := by
  cases q with
  | term field t =>
    cases t with
    | int v =>
      have hp := hs.intPostings field
      have hf := Option.mem_toList.mp hdocs
      exact hp.docs_lt _ ((Postings.find?_eq_some hp.terms).mp hf)
    | str v =>
      have hp := hs.stringPostings field
      have hf := Option.mem_toList.mp hdocs
      exact hp.docs_lt _ ((Postings.find?_eq_some hp.terms).mp hf)
  | intRange field min max inclusive =>
    obtain ⟨e, he, rfl⟩ := List.mem_map.mp hdocs
    exact (hs.intPostings field).docs_lt e (mem_of_mem_termsBetween he)
  | stringRange field min max inclusive =>
    obtain ⟨e, he, rfl⟩ := List.mem_map.mp hdocs
    exact (hs.stringPostings field).docs_lt e (mem_of_mem_termsBetween he)
  | and | or | not => cases hdocs

/-- A union of posting lists. -/
theorem secures_leaf (q : Query) :
    Secures (holding (DocSet.bytesFor shard.numDocs) fun _ =>
        orBroken ((postingLists shard q).foldlM DocSet.mark? (DocSet.empty shard.numDocs)))
      (DocSet.bytesFor shard.numDocs) (·.len = shard.numDocs) (¬ shard.Ascending) := by
  refine secures_holding (secures_orBroken (fun docs hdocs => ?_) fun hnone hs => ?_)
  · exact foldlM_relates (R := fun s t : DocSet => t.len = s.len) (fun _ => rfl)
      (fun _ _ _ h1 h2 => h2.trans h1) (fun list _ s t ht => DocSet.len_mark? ht) hdocs
  · have hall : ∀ list ∈ postingLists shard q, ∀ s : DocSet, s.len = shard.numDocs →
        ∃ t, s.mark? list = some t ∧ t.len = shard.numDocs := by
      intro list hlist s hlen
      have hlt : ∀ d ∈ list, d < s.len :=
        fun d hd => hlen.symm ▸ lt_numDocs_of_mem_postingLists hs hlist d hd
      obtain ⟨t, ht⟩ := DocSet.exists_mark? hlt
      exact ⟨t, ht, (DocSet.len_mark? ht).trans hlen⟩
    have hempty : (DocSet.empty shard.numDocs).len = shard.numDocs := rfl
    obtain ⟨t, ht, -⟩ := exists_foldlM_of (fun s : DocSet => s.len = shard.numDocs) hempty hall
    rw [hnone] at ht
    cases ht

/-! ### Whole queries -/

section Leaves

variable (shard : Shard) (field : String)

/-- A test of one field is answered by a union of posting lists. -/
theorem search_term (t : Term) : search shard (.term field t) =
    holding (DocSet.bytesFor shard.numDocs) fun _ =>
      orBroken ((postingLists shard (.term field t)).foldlM DocSet.mark?
        (DocSet.empty shard.numDocs)) := by
  rw [search] <;> simp

theorem search_intRange (min max : Int) (inclusive : Bool) :
    search shard (.intRange field min max inclusive) =
    holding (DocSet.bytesFor shard.numDocs) fun _ =>
      orBroken ((postingLists shard (.intRange field min max inclusive)).foldlM DocSet.mark?
        (DocSet.empty shard.numDocs)) := by
  rw [search] <;> simp

theorem search_stringRange (min max : String) (inclusive : Bool) :
    search shard (.stringRange field min max inclusive) =
    holding (DocSet.bytesFor shard.numDocs) fun _ =>
      orBroken ((postingLists shard (.stringRange field min max inclusive)).foldlM DocSet.mark?
        (DocSet.empty shard.numDocs)) := by
  rw [search] <;> simp

end Leaves

/-- Sets over `n` documents can be joined, to a set over the same. -/
def Joins (n : Nat) (join? : DocSet → DocSet → Option DocSet) : Prop :=
  ∀ s t, s.len = n → t.len = n → ∃ u, join? s t = some u ∧ u.len = n

theorem joins_inter? (n : Nat) : Joins n DocSet.inter? :=
  fun _ _ hs ht => ⟨_, if_pos (hs.trans ht.symm), hs⟩

theorem joins_union? (n : Nat) : Joins n DocSet.union? :=
  fun _ _ hs ht => ⟨_, if_pos (hs.trans ht.symm), hs⟩

mutual

theorem search_secures (shard : Shard) :
    ∀ q : Query, Secures (search shard q) (DocSet.bytesFor shard.numDocs)
      (·.len = shard.numDocs) (¬ shard.Ascending)
  | .and parts => by
    rw [search]
    exact secures_holding (narrow_secures shard (joins_inter? _) parts _ rfl)
  | .or parts => by
    rw [search]
    exact secures_holding (narrow_secures shard (joins_union? _) parts _ rfl)
  | .not part => by
    intro l h
    rw [search]
    exact ends_bind ((search_secures shard part l h).mono (fun _ _ h1 => ends_pure h1)
      (fun _ _ h1 => h1))
  | .term field t => by
    rw [search_term]
    exact secures_leaf _
  | .intRange field min max inclusive => by
    rw [search_intRange]
    exact secures_leaf _
  | .stringRange field min max inclusive => by
    rw [search_stringRange]
    exact secures_leaf _

theorem narrow_secures (shard : Shard) {join? : DocSet → DocSet → Option DocSet}
    (hj : Joins shard.numDocs join?) : ∀ (parts : List Query) (acc : DocSet),
      acc.len = shard.numDocs →
        Secures (narrow shard join? acc parts) 0 (·.len = shard.numDocs) (¬ shard.Ascending)
  | [], acc, hacc => by
    rw [narrow]
    exact secures_pure hacc
  | part :: parts, acc, hacc => by
    intro l h
    rw [narrow]
    refine ends_bind ((search_secures shard part l h).mono ?_ (fun _ _ h1 => h1))
    rintro found l1 ⟨hfound, h1, hu1⟩
    obtain ⟨joined, hjoined, hlen⟩ := hj acc found hacc hfound
    rw [hjoined]
    refine ends_bind (ends_pure (ends_bind (ends_release h1 (by omega) fun l2 h2 hu2 _ => ?_)))
    refine (narrow_secures shard hj parts joined hlen l2 h2).mono ?_ ?_
    · rintro a l3 ⟨ha, h3, hu3⟩
      exact ⟨ha, h3, by omega⟩
    · rintro (e | _) l3 he
      · exact ⟨he.1, by have := he.2; omega⟩
      · exact he

end

/-! ### Searches run twice -/

variable {strict : Prop}

theorem repeats_leaf (q : Query) :
    Repeats strict (holding (DocSet.bytesFor shard.numDocs) fun _ =>
      orBroken ((postingLists shard q).foldlM DocSet.mark? (DocSet.empty shard.numDocs))) := by
  have hunion : Secures
      (orBroken ((postingLists shard q).foldlM DocSet.mark? (DocSet.empty shard.numDocs))) 0
      (fun _ => True) True :=
    secures_orBroken (fun _ _ => trivial) fun _ => trivial
  exact repeats_holding hunion (repeats_orBroken _)

mutual

theorem search_repeats (shard : Shard) : ∀ q : Query, Repeats strict (search shard q)
  | .and parts => by
    rw [search]
    have hj := joins_inter? shard.numDocs
    exact repeats_holding (narrow_secures shard hj parts _ rfl)
      (narrow_repeats shard hj parts _ rfl)
  | .or parts => by
    rw [search]
    have hj := joins_union? shard.numDocs
    exact repeats_holding (narrow_secures shard hj parts _ rfl)
      (narrow_repeats shard hj parts _ rfl)
  | .not part => by
    intro l l' hl hl' h
    rw [search]
    exact alike_bind (search_repeats shard part l l' hl hl' h)
      fun _ t t' ht _ _ => alike_pure ht
  | .term field t => by
    rw [search_term]
    exact repeats_leaf _
  | .intRange field min max inclusive => by
    rw [search_intRange]
    exact repeats_leaf _
  | .stringRange field min max inclusive => by
    rw [search_stringRange]
    exact repeats_leaf _

theorem narrow_repeats (shard : Shard) {join? : DocSet → DocSet → Option DocSet}
    (hj : Joins shard.numDocs join?) : ∀ (parts : List Query) (acc : DocSet),
      acc.len = shard.numDocs → Repeats strict (narrow shard join? acc parts)
  | [], acc, _ => by
    rw [narrow]
    exact repeats_pure acc
  | part :: parts, acc, hacc => by
    intro l l' hl hl' h
    rw [narrow]
    refine alike_bind (search_repeats shard part l l' hl hl' h) fun found t t' ht hx hx' => ?_
    obtain ⟨hfound, h1, hu1⟩ := (search_secures shard part l hl).ok_of hx
    obtain ⟨-, h1', hu1'⟩ := (search_secures shard part l' hl').ok_of hx'
    obtain ⟨joined, hjoined, hlen⟩ := hj acc found hacc hfound
    rw [hjoined]
    refine alike_bind (alike_orBroken ht) fun _ _ _ hv hok hok' => ?_
    cases hok
    cases hok'
    refine alike_bind (alike_release hv h1 h1' (by omega) (by omega) fun _ => rfl) ?_
    intro _ u u' hu hr hr'
    exact narrow_repeats shard hj parts joined hlen u u' (release_ok h1 (by omega) hr).1
      (release_ok h1' (by omega) hr').1 hu

end

end Query

end Cohort
