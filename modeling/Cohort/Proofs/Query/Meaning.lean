import Cohort.Proofs.Query.Search
import Cohort.Proofs.Utf8

/-!
# Query meaning — a search finds the documents that a query selects

`Selects` reads a query off the values that a document holds: ranges are intervals, closed or half
open, and strings are ordered by their bytes. `satisfies` decides it. A search gives the set of the
documents that are selected, whichever ledger pays for it.
-/

namespace Cohort.Query

open Memory Memory.Charge

variable {shard : Shard}

/-! ### What a query selects -/

/-- From `min` on up to `max`, which only belongs to an inclusive range. -/
def Between {τ : Type} [LT τ] [LE τ] (min max : τ) (inclusive : Bool) (v : τ) : Prop :=
  min ≤ v ∧ if inclusive then v ≤ max else v < max

/-- Whether document `doc` is one that the query asks for. -/
def Selects (shard : Shard) (doc : Nat) : Query → Prop
  | term field (.int v) => v ∈ shard.intValues field doc
  | term field (.str v) => v ∈ shard.stringValues field doc
  | intRange field min max inclusive =>
    ∃ v ∈ shard.intValues field doc, Between min max inclusive v
  | stringRange field min max inclusive =>
    ∃ v ∈ shard.stringValues field doc,
      Between (utf8Bytes min) (utf8Bytes max) inclusive (utf8Bytes v)
  | and parts => ∀ q ∈ parts, q.Selects shard doc
  | or parts => ∃ q, ∃ _ : q ∈ parts, q.Selects shard doc
  | not part => ¬ part.Selects shard doc

section Ranges

variable {τ : Type} [LinearOrder τ] {min max v : τ} {inclusive : Bool}

theorem inRange_iff : inRange min max inclusive v = true ↔ Between min max inclusive v := by
  unfold inRange Between
  rw [Bool.and_eq_true, Bool.not_eq_true', decide_eq_false_iff_not, not_lt]
  refine and_congr_right fun _ => ?_
  cases inclusive with
  | false => simp
  | true => simp [le_iff_lt_or_eq]

/-- The terms of a range, told of all terms: a search from the lower bound misses none. -/
theorem termsBetween_eq {p : Postings τ} {n : Nat} (hp : p.Ascending n) :
    termsBetween p min max inclusive = p.entries.filter fun e => inRange min max inclusive e.1 := by
  have hasc : (p.startingAt min).Pairwise fun a b => a.1 < b.1 := by
    rw [Postings.startingAt_eq hp.terms]
    exact hp.terms.filter _
  unfold termsBetween
  rw [takeWhile_eq_filter, Postings.startingAt_eq hp.terms, List.filter_filter]
  · refine List.filter_congr fun e _ => ?_
    unfold inRange
    rw [Bool.and_comm]
  · refine hasc.imp fun {a b} hab hb => ?_
    simp only [Bool.or_eq_true, Bool.and_eq_true, decide_eq_true_eq] at hb ⊢
    rcases hb with hb | ⟨rfl, -⟩
    · exact .inl (lt_trans hab hb)
    · exact .inl hab

/-- Documents that are listed under a term of a range. -/
theorem exists_termsBetween {p : Postings τ} {n doc : Nat} (hp : p.Ascending n) :
    (∃ list ∈ (termsBetween p min max inclusive).map (·.2), doc ∈ list) ↔
      ∃ v ∈ p.valuesOf doc, inRange min max inclusive v = true := by
  rw [termsBetween_eq hp]
  constructor
  · rintro ⟨list, hlist, hdoc⟩
    obtain ⟨e, he, rfl⟩ := List.mem_map.mp hlist
    obtain ⟨hmem, hin⟩ := List.mem_filter.mp he
    exact ⟨e.1, Postings.mem_valuesOf.mpr ⟨e.2, hmem, hdoc⟩, hin⟩
  · rintro ⟨v, hv, hin⟩
    obtain ⟨list, hmem, hdoc⟩ := Postings.mem_valuesOf.mp hv
    exact ⟨list, List.mem_map.mpr ⟨(v, list), List.mem_filter.mpr ⟨hmem, hin⟩, rfl⟩, hdoc⟩

/-- Documents that are listed under one term. -/
theorem exists_find? {p : Postings τ} {n doc : Nat} (hp : p.Ascending n) :
    (∃ list ∈ (p.find? v).toList, doc ∈ list) ↔ v ∈ p.valuesOf doc := by
  rw [Postings.mem_valuesOf]
  refine exists_congr fun list => and_congr_left fun _ => ?_
  rw [Option.mem_toList, Postings.find?_eq_some hp.terms]

end Ranges

theorem between_utf8Bytes_iff {min max v : String} {inclusive : Bool} :
    Between (utf8Bytes min) (utf8Bytes max) inclusive (utf8Bytes v) ↔
      Between min max inclusive v := by
  have hle : ∀ s t : String, utf8Bytes s ≤ utf8Bytes t ↔ s ≤ t := fun s t => by
    rw [← not_lt, ← utf8Bytes_lt_iff]
    exact Iff.rfl
  unfold Between
  rw [hle, hle, utf8Bytes_lt_iff]

/-- What a query selects can be worked out. -/
theorem satisfies_iff (shard : Shard) (doc : Nat) :
    ∀ q : Query, q.satisfies shard doc = true ↔ q.Selects shard doc
  | .term field (.int v) => by
    rw [satisfies, Selects, List.contains_iff_mem]
  | .term field (.str v) => by
    rw [satisfies, Selects, List.contains_iff_mem]
  | .intRange field min max inclusive => by
    rw [satisfies, Selects, List.any_eq_true]
    exact exists_congr fun v => and_congr_right fun _ => inRange_iff
  | .stringRange field min max inclusive => by
    rw [satisfies, Selects, List.any_eq_true]
    exact exists_congr fun v => and_congr_right fun _ =>
      inRange_iff.trans between_utf8Bytes_iff.symm
  | .and parts => by
    rw [satisfies, Selects, List.all_eq_true]
    constructor
    · exact fun h q hq => (satisfies_iff shard doc q).mp (h ⟨q, hq⟩ (List.mem_attach _ _))
    · rintro h ⟨q, hq⟩ -
      exact (satisfies_iff shard doc q).mpr (h q hq)
  | .or parts => by
    rw [satisfies, Selects, List.any_eq_true]
    constructor
    · rintro ⟨⟨q, hq⟩, -, h⟩
      exact ⟨q, hq, (satisfies_iff shard doc q).mp h⟩
    · rintro ⟨q, hq, h⟩
      exact ⟨⟨q, hq⟩, List.mem_attach _ _, (satisfies_iff shard doc q).mpr h⟩
  | .not part => by
    rw [satisfies, Selects, Bool.not_eq_true', ← satisfies_iff shard doc part, Bool.not_eq_true]

instance (shard : Shard) (doc : Nat) (q : Query) : Decidable (q.Selects shard doc) :=
  decidable_of_iff _ (satisfies_iff shard doc q)

theorem satisfies_and (shard : Shard) (doc : Nat) (parts : List Query) :
    (and parts).satisfies shard doc = parts.all (·.satisfies shard doc) := by
  simp [satisfies]

theorem satisfies_or (shard : Shard) (doc : Nat) (parts : List Query) :
    (or parts).satisfies shard doc = parts.any (·.satisfies shard doc) := by
  simp [satisfies]

/-! ### What a search finds -/

/-- A union of posting lists. -/
theorem yields_leaf (q : Query)
    (hq : ∀ d, (∃ list ∈ postingLists shard q, d ∈ list) ↔ q.satisfies shard d = true) :
    Yields (holding (DocSet.bytesFor shard.numDocs) fun _ =>
        orBroken ((postingLists shard q).foldlM DocSet.mark? (DocSet.empty shard.numDocs)))
      (·.Comprises shard.numDocs fun d => q.satisfies shard d) := by
  refine yields_holding (yields_orBroken fun docs hdocs => ?_)
  have hunion : docs.Comprises shard.numDocs
      fun d => (postingLists shard q).any (·.contains d) := by
    refine foldlM_induct (fun done s => s.Comprises shard.numDocs
      fun d => done.any (·.contains d)) (DocSet.comprises_empty _) ?_ hdocs
    intro done list rest s t _ hs ht
    refine (hs.mark? ht).congr fun d _ => ?_
    rw [List.any_append, List.any_cons, List.any_nil, Bool.or_false]
  refine hunion.congr fun d _ => ?_
  rw [Bool.eq_iff_iff, ← hq, List.any_eq_true]
  simp only [List.contains_iff_mem]

/-- `join?` joins sets over `n` documents by what both say about a document. -/
def JoinsBy (n : Nat) (op : Bool → Bool → Bool) (join? : DocSet → DocSet → Option DocSet) : Prop :=
  ∀ (s t : DocSet) (p q : Nat → Bool), s.Comprises n p → t.Comprises n q →
    ∃ u, join? s t = some u ∧ u.Comprises n fun d => op (p d) (q d)

theorem joinsBy_inter? (n : Nat) : JoinsBy n (· && ·) DocSet.inter? :=
  fun _ _ _ _ hs ht => hs.inter? ht

theorem joinsBy_union? (n : Nat) : JoinsBy n (· || ·) DocSet.union? :=
  fun _ _ _ _ hs ht => hs.union? ht

theorem foldl_and (p : Query → Bool) (parts : List Query) (b : Bool) :
    parts.foldl (fun b q => b && p q) b = (b && parts.all p) := by
  induction parts generalizing b with
  | nil => exact (Bool.and_true b).symm
  | cons q parts ih => rw [List.foldl_cons, ih, List.all_cons, Bool.and_assoc]

theorem foldl_or (p : Query → Bool) (parts : List Query) (b : Bool) :
    parts.foldl (fun b q => b || p q) b = (b || parts.any p) := by
  induction parts generalizing b with
  | nil => exact (Bool.or_false b).symm
  | cons q parts ih => rw [List.foldl_cons, ih, List.any_cons, Bool.or_assoc]

mutual

theorem search_yields (hs : shard.Ascending) : ∀ q : Query,
    Yields (search shard q) (·.Comprises shard.numDocs fun d => q.satisfies shard d)
  | .and parts => by
    rw [search]
    refine yields_holding fun l => (narrow_yields hs (joinsBy_inter? _) parts _ _
      (DocSet.comprises_full _) l).mono (fun docs _ hdocs => hdocs.congr fun d _ => ?_)
      fun _ _ he => he
    rw [foldl_and, satisfies_and, Bool.true_and]
  | .or parts => by
    rw [search]
    refine yields_holding fun l => (narrow_yields hs (joinsBy_union? _) parts _ _
      (DocSet.comprises_empty _) l).mono (fun docs _ hdocs => hdocs.congr fun d _ => ?_)
      fun _ _ he => he
    rw [foldl_or, satisfies_or, Bool.false_or]
  | .not part => by
    rw [search]
    refine yields_bind (search_yields hs part) fun docs hdocs => yields_pure ?_
    exact hdocs.complement.congr fun d _ => by rw [satisfies]
  | .term field (.int v) => by
    rw [search_term]
    refine yields_leaf _ fun d => ?_
    rw [satisfies, List.contains_iff_mem]
    exact exists_find? (hs.intPostings field)
  | .term field (.str v) => by
    rw [search_term]
    refine yields_leaf _ fun d => ?_
    rw [satisfies, List.contains_iff_mem]
    exact exists_find? (hs.stringPostings field)
  | .intRange field min max inclusive => by
    rw [search_intRange]
    refine yields_leaf _ fun d => ?_
    rw [satisfies, List.any_eq_true]
    exact exists_termsBetween (hs.intPostings field)
  | .stringRange field min max inclusive => by
    rw [search_stringRange]
    refine yields_leaf _ fun d => ?_
    rw [satisfies, List.any_eq_true]
    exact exists_termsBetween (hs.stringPostings field)

/-- Joining the results one after the other joins what they say about every document. -/
theorem narrow_yields (hs : shard.Ascending) {op : Bool → Bool → Bool}
    {join? : DocSet → DocSet → Option DocSet} (hj : JoinsBy shard.numDocs op join?) :
    ∀ (parts : List Query) (acc : DocSet) (p : Nat → Bool), acc.Comprises shard.numDocs p →
      Yields (narrow shard join? acc parts) (·.Comprises shard.numDocs
        fun d => parts.foldl (fun b q => op b (q.satisfies shard d)) (p d))
  | [], acc, p, hacc => by
    rw [narrow]
    exact yields_pure hacc
  | part :: parts, acc, p, hacc => by
    rw [narrow]
    refine yields_bind (search_yields hs part) fun found hfound => ?_
    obtain ⟨joined, hjoined, hcomp⟩ := hj acc found p _ hacc hfound
    rw [hjoined]
    exact yields_bind (yields_pure hcomp) fun _ hu => yields_bind yields_release fun _ _ =>
      narrow_yields hs hj parts _ _ hu

end

end Cohort.Query
