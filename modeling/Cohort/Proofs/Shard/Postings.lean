import Mathlib
import Cohort.Proofs.Shard

/-!
# Postings — what they say about documents

The same facts read two ways: the documents of each term, and the terms of each document.
-/

namespace Cohort

namespace Postings

variable {τ : Type} {p : Postings τ} {numDocs d c : Nat} {t u : τ}

/-! ### The terms of a document -/

theorem valuesOf_cons (e : τ × List Nat) (entries : List (τ × List Nat)) (d : Nat) :
    (mk (e :: entries)).valuesOf d =
      if d ∈ e.2 then e.1 :: (mk entries).valuesOf d else (mk entries).valuesOf d := by
  unfold valuesOf
  simp only [List.filter_cons, List.contains_iff_mem]
  split_ifs <;> rfl

theorem mem_valuesOf_cons {e : τ × List Nat} {entries : List (τ × List Nat)} :
    u ∈ (mk (e :: entries)).valuesOf d ↔ u = e.1 ∧ d ∈ e.2 ∨ u ∈ (mk entries).valuesOf d := by
  rw [valuesOf_cons]
  split_ifs with hd <;> simp [hd]

variable [LinearOrder τ]

/-- Recording a term of a document adds just that. -/
theorem mem_valuesOf_add : u ∈ (p.add t d).valuesOf c ↔ u = t ∧ c = d ∨ u ∈ p.valuesOf c := by
  obtain ⟨entries⟩ := p
  show u ∈ (mk (addEntry t d entries)).valuesOf c ↔ _
  induction entries with
  | nil =>
    show u ∈ (mk [(t, [d])]).valuesOf c ↔ _
    rw [mem_valuesOf_cons, List.mem_singleton]
  | cons e entries ih =>
    unfold addEntry
    split_ifs with h1 h2
    · rw [mem_valuesOf_cons, List.mem_singleton]
    · rw [mem_valuesOf_cons, mem_valuesOf_cons, mem_insertAscending, h2]
      tauto
    · rw [mem_valuesOf_cons, mem_valuesOf_cons, ih]
      tauto

theorem Ascending.pairwise_valuesOf (hp : p.Ascending numDocs) (d : Nat) :
    (p.valuesOf d).Pairwise (· < ·) := by
  unfold valuesOf
  rw [List.pairwise_map]
  exact hp.terms.filter _

/-- The terms of a document are the given values, in order and each once. -/
theorem Ascending.valuesOf_eq_sort (hp : p.Ascending numDocs) {xs : List τ}
    (h : ∀ u, u ∈ p.valuesOf d ↔ u ∈ xs) : p.valuesOf d = xs.toFinset.sort (· ≤ ·) := by
  refine (hp.pairwise_valuesOf d).eq_of_mem_iff ?_ fun u => ?_
  · exact (Finset.sortedLT_sort xs.toFinset).pairwise
  · rw [h, Finset.mem_sort, List.mem_toFinset]

/-- The documents of a term, in order. -/
theorem Ascending.docs_eq_filter (hp : p.Ascending numDocs) {e : τ × List Nat}
    (he : e ∈ p.entries) : e.2 = (List.range numDocs).filter fun d => e.1 ∈ p.valuesOf d := by
  refine (hp.docs e he).eq_of_mem_iff ?_ fun d => ?_
  · exact List.pairwise_lt_range.filter _
  rw [List.mem_filter, List.mem_range, decide_eq_true_eq, mem_valuesOf]
  constructor
  · intro hd
    exact ⟨hp.docs_lt e he d hd, e.2, he, hd⟩
  · rintro ⟨-, docs, hdocs, hd⟩
    have hsame : docs = e.2 := by
      have hfind := (Postings.find?_eq_some hp.terms).mpr hdocs
      rw [(Postings.find?_eq_some hp.terms).mpr (show (e.1, e.2) ∈ p.entries from he)] at hfind
      exact (Option.some_inj.mp hfind).symm
    rwa [← hsame]

/-! ### Frequencies -/

/-- How many of `numDocs` documents a list without repetitions names. -/
theorem length_eq_sum {docs : List Nat} (hdocs : docs.Nodup) (hlt : ∀ d ∈ docs, d < numDocs) :
    docs.length = ∑ d ∈ Finset.range numDocs, if d ∈ docs then 1 else 0 := by
  have hfilter : (Finset.range numDocs).filter (· ∈ docs) = docs.toFinset := by
    ext d
    rw [Finset.mem_filter, Finset.mem_range, List.mem_toFinset]
    exact ⟨And.right, fun hd => ⟨hlt d hd, hd⟩⟩
  rw [← Finset.card_filter, hfilter, List.toFinset_card_of_nodup hdocs]

/-- Counted by term or by document, the frequency is the same. -/
theorem Ascending.totalDocFreq_eq (hp : p.Ascending numDocs) :
    p.totalDocFreq = ∑ d ∈ Finset.range numDocs, (p.valuesOf d).length := by
  have hall : ∀ e ∈ p.entries, e.2.Nodup ∧ ∀ d ∈ e.2, d < numDocs :=
    fun e he => ⟨(hp.docs e he).imp fun h => h.ne, hp.docs_lt e he⟩
  obtain ⟨entries⟩ := p
  clear hp
  induction entries with
  | nil => exact (Finset.sum_const_zero).symm
  | cons e entries ih =>
    obtain ⟨⟨hnodup, hlt⟩, hrest⟩ := List.forall_mem_cons.mp hall
    have hcount : ∀ d, ((Postings.mk (e :: entries)).valuesOf d).length =
        (if d ∈ e.2 then 1 else 0) + ((Postings.mk entries).valuesOf d).length := by
      intro d
      rw [valuesOf_cons]
      split_ifs
      · rw [List.length_cons, Nat.add_comm]
      · rw [Nat.zero_add]
    calc (Postings.mk (e :: entries)).totalDocFreq
        = e.2.length + (Postings.mk entries).totalDocFreq := rfl
      _ = (∑ d ∈ Finset.range numDocs, if d ∈ e.2 then 1 else 0) +
          ∑ d ∈ Finset.range numDocs, ((Postings.mk entries).valuesOf d).length := by
        rw [ih hrest, ← length_eq_sum hnodup hlt]
      _ = ∑ d ∈ Finset.range numDocs, ((Postings.mk (e :: entries)).valuesOf d).length := by
        rw [← Finset.sum_add_distrib]
        exact Finset.sum_congr rfl fun d _ => (hcount d).symm

/-! ### The numeric view -/

theorem getElem?_write (docs : List Nat) (term : Int) (values : Array Int) (d : Nat) :
    (docs.foldl (fun vs doc => vs.setIfInBounds doc term) values)[d]? =
      values[d]?.map fun v => if d ∈ docs then term else v := by
  induction docs generalizing values with
  | nil => simp
  | cons doc docs ih =>
    rw [List.foldl_cons, ih, Array.getElem?_setIfInBounds]
    by_cases hdoc : doc = d
    · subst hdoc
      by_cases hlt : doc < values.size <;> simp [hlt]
    · simp [hdoc, Ne.symm hdoc]

/-- The last term that a document holds is the one that is left. -/
theorem getElem?_writeAll (entries : List (Int × List Nat)) (values : Array Int) (d : Nat) :
    (entries.foldl (fun vs e => e.2.foldl (fun vs doc => vs.setIfInBounds doc e.1) vs) values)[d]? =
      values[d]?.map fun v => ((mk entries).valuesOf d).getLast?.getD v := by
  induction entries generalizing values with
  | nil => exact Option.map_id'.symm
  | cons e entries ih =>
    rw [List.foldl_cons, ih, getElem?_write, Option.map_map]
    congr 1
    funext v
    rw [valuesOf_cons]
    by_cases hd : d ∈ e.2
    · simp [hd, List.getLast?_cons]
    · simp [hd]

/-- The last of ascending numbers is the largest. -/
theorem getLast?_eq_max? {xs ys : List Int} (hxs : xs.Pairwise (· < ·))
    (h : ∀ u, u ∈ xs ↔ u ∈ ys) : xs.getLast? = ys.max? := by
  cases hlast : xs.getLast? with
  | none =>
    rw [List.getLast?_eq_none_iff] at hlast
    subst hlast
    have hys : ys = [] := List.eq_nil_iff_forall_not_mem.mpr fun u hu =>
      List.not_mem_nil ((h u).mpr hu)
    rw [hys]
    rfl
  | some a =>
    obtain ⟨before, rfl⟩ := List.getLast?_eq_some_iff.mp hlast
    obtain ⟨-, -, hlt⟩ := List.pairwise_append.mp hxs
    refine (List.max?_eq_some_iff.mpr ⟨(h a).mp (by simp), fun b hb => ?_⟩).symm
    rcases List.mem_append.mp ((h b).mpr hb) with hb | hb
    · exact (hlt b hb a (List.mem_singleton.mpr rfl)).le
    · exact (List.mem_singleton.mp hb).le

end Postings

end Cohort
