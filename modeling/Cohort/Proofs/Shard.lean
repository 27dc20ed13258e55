import Mathlib.Data.Int.Order.Basic
import Mathlib.Data.String.Basic
import Mathlib.Tactic.SplitIfs
import Cohort.Proofs.Ascending
import Cohort.Proofs.Loops
import Cohort.Proofs.Outcome
import Cohort.Shard.Columns

/-!
# Shards — what recording values keeps

`Built` are the shards that come from an empty one by registering fields and recording values. In
all of them the terms of a field ascend strictly, each is held by some documents, in ascending
order, and only documents that exist hold terms.
-/

namespace Cohort

/-! ### Postings -/

namespace Postings

section

variable {τ : Type} {p : Postings τ} {numDocs d : Nat} {t : τ}

/-- The terms that a document holds. -/
theorem mem_valuesOf : t ∈ p.valuesOf d ↔ ∃ docs, (t, docs) ∈ p.entries ∧ d ∈ docs := by
  unfold valuesOf
  rw [List.mem_map]
  constructor
  · rintro ⟨⟨u, docs⟩, he, rfl⟩
    rw [List.mem_filter, List.contains_iff_mem] at he
    exact ⟨docs, he⟩
  · rintro ⟨docs, he, hd⟩
    exact ⟨(t, docs), List.mem_filter.mpr ⟨he, List.contains_iff_mem.mpr hd⟩, rfl⟩

variable [LinearOrder τ]

/-- Terms ascend strictly, and each is held by some documents, which exist and ascend strictly. -/
structure Ascending (p : Postings τ) (numDocs : Nat) : Prop where
  terms : p.entries.Pairwise fun a b => a.1 < b.1
  docs : ∀ e ∈ p.entries, e.2.Pairwise (· < ·)
  docs_ne : ∀ e ∈ p.entries, e.2 ≠ []
  docs_lt : ∀ e ∈ p.entries, ∀ d ∈ e.2, d < numDocs

theorem ascending_empty (numDocs : Nat) : (empty : Postings τ).Ascending numDocs :=
  ⟨List.Pairwise.nil, nofun, nofun, nofun⟩

theorem mem_insertAscending {d e : Nat} {docs : List Nat} :
    e ∈ insertAscending d docs ↔ e = d ∨ e ∈ docs := by
  induction docs with
  | nil => simp [insertAscending]
  | cons c docs ih =>
    unfold insertAscending
    split_ifs with h1 h2
    · exact List.mem_cons
    · subst h2
      simp
    · rw [List.mem_cons, ih, List.mem_cons]
      exact or_left_comm

theorem pairwise_insertAscending {docs : List Nat} (h : docs.Pairwise (· < ·)) :
    (insertAscending d docs).Pairwise (· < ·) := by
  induction docs with
  | nil => exact List.pairwise_singleton _ _
  | cons c docs ih =>
    obtain ⟨hc, hrest⟩ := List.pairwise_cons.mp h
    unfold insertAscending
    split_ifs with h1 h2
    · refine List.pairwise_cons.mpr ⟨fun e he => ?_, h⟩
      rcases List.mem_cons.mp he with rfl | he
      · exact h1
      · exact lt_trans h1 (hc e he)
    · exact h
    · refine List.pairwise_cons.mpr ⟨fun e he => ?_, ih hrest⟩
      rcases mem_insertAscending.mp he with rfl | he
      · omega
      · exact hc e he

/-- What an entry is after recording that `d` holds `t`. -/
theorem addEntry_cases {entries : List (τ × List Nat)} {e : τ × List Nat}
    (he : e ∈ addEntry t d entries) : e ∈ entries ∨ e = (t, [d]) ∨
      ∃ docs, (t, docs) ∈ entries ∧ e = (t, insertAscending d docs) := by
  induction entries with
  | nil => exact .inr (.inl (List.mem_singleton.mp he))
  | cons f entries ih =>
    unfold addEntry at he
    split_ifs at he with h1 h2
    · rcases List.mem_cons.mp he with rfl | he
      · exact .inr (.inl rfl)
      · exact .inl he
    · rcases List.mem_cons.mp he with rfl | he
      · subst h2
        exact .inr (.inr ⟨f.2, List.mem_cons_self, rfl⟩)
      · exact .inl (List.mem_cons_of_mem _ he)
    · rcases List.mem_cons.mp he with rfl | he
      · exact .inl List.mem_cons_self
      · rcases ih he with he | rfl | ⟨docs, hdocs, rfl⟩
        · exact .inl (List.mem_cons_of_mem _ he)
        · exact .inr (.inl rfl)
        · exact .inr (.inr ⟨docs, List.mem_cons_of_mem _ hdocs, rfl⟩)

theorem pairwise_addEntry {entries : List (τ × List Nat)} (d : Nat)
    (h : entries.Pairwise fun a b => a.1 < b.1) :
    (addEntry t d entries).Pairwise fun a b => a.1 < b.1 := by
  induction entries with
  | nil => exact List.pairwise_singleton _ _
  | cons f entries ih =>
    obtain ⟨hf, hrest⟩ := List.pairwise_cons.mp h
    unfold addEntry
    split_ifs with h1 h2
    · refine List.pairwise_cons.mpr ⟨fun e he => ?_, h⟩
      rcases List.mem_cons.mp he with rfl | he
      · exact h1
      · exact lt_trans h1 (hf e he)
    · exact List.pairwise_cons.mpr ⟨hf, hrest⟩
    · have hft : f.1 < t := lt_of_le_of_ne (not_lt.mp h1) fun hne => h2 hne.symm
      refine List.pairwise_cons.mpr ⟨fun e he => ?_, ih hrest⟩
      rcases addEntry_cases he with he | rfl | ⟨docs, -, rfl⟩
      · exact hf e he
      · exact hft
      · exact hft

theorem Ascending.add (hp : p.Ascending numDocs) (hd : d < numDocs) (t : τ) :
    (p.add t d).Ascending numDocs := by
  refine ⟨pairwise_addEntry d hp.terms, fun e he => ?_, fun e he => ?_, fun e he c hc => ?_⟩ <;>
    rcases addEntry_cases he with he | rfl | ⟨docs, hdocs, rfl⟩
  · exact hp.docs e he
  · exact List.pairwise_singleton _ _
  · exact pairwise_insertAscending (hp.docs _ hdocs)
  · exact hp.docs_ne e he
  · exact List.cons_ne_nil _ _
  · exact List.ne_nil_of_mem (mem_insertAscending.mpr (.inl rfl))
  · exact hp.docs_lt e he c hc
  · exact (List.mem_singleton.mp hc).trans_lt hd
  · rcases mem_insertAscending.mp hc with rfl | hc
    · exact hd
    · exact hp.docs_lt _ hdocs c hc

/-! ### Searching the terms -/

theorem upTo_eq (hterms : p.entries.Pairwise fun a b => a.1 < b.1) (t : τ) :
    p.upTo t = p.entries.filter fun e => !decide (t < e.1) := by
  refine takeWhile_eq_filter (hterms.imp fun hab hb => ?_)
  simp only [Bool.not_eq_true', decide_eq_false_iff_not, not_lt] at hb ⊢
  exact le_trans (le_of_lt hab) hb

theorem startingAt_eq (hterms : p.entries.Pairwise fun a b => a.1 < b.1) (t : τ) :
    p.startingAt t = p.entries.filter fun e => !decide (e.1 < t) := by
  refine dropWhile_eq_filter (hterms.imp fun hab hb => ?_)
  simp only [decide_eq_true_eq] at hb ⊢
  exact lt_trans hab hb

/-- A search finds a term exactly if it is there. -/
theorem find?_eq_some (hterms : p.entries.Pairwise fun a b => a.1 < b.1) {docs : List Nat} :
    p.find? t = some docs ↔ (t, docs) ∈ p.entries := by
  have hmem : ∀ e, e ∈ p.startingAt t ↔ e ∈ p.entries ∧ ¬ e.1 < t := by
    intro e
    rw [startingAt_eq hterms, List.mem_filter]
    simp
  have hasc : (p.startingAt t).Pairwise fun a b => a.1 < b.1 := by
    rw [startingAt_eq hterms]
    exact hterms.filter _
  unfold find?
  cases hs : p.startingAt t with
  | nil =>
    rw [hs] at hmem
    have hnot : ¬ (t, docs) ∈ p.entries := fun hin =>
      List.not_mem_nil ((hmem (t, docs)).mpr ⟨hin, lt_irrefl t⟩)
    simp [hnot]
  | cons e rest =>
    rw [hs] at hmem hasc
    obtain ⟨he, het⟩ := (hmem e).mp List.mem_cons_self
    constructor
    · intro h
      simp only at h
      split_ifs at h with heq
      cases h
      rwa [← heq]
    · intro hin
      rcases List.mem_cons.mp ((hmem (t, docs)).mpr ⟨hin, lt_irrefl t⟩) with heq | hrest
      · subst heq
        exact if_pos rfl
      · exact absurd ((List.pairwise_cons.mp hasc).1 _ hrest) het

/-! ### Fields -/

/-- Every field of the map is ascending. -/
def AllAscending (m : FieldMap τ) (numDocs : Nat) : Prop :=
  ∀ e ∈ m, e.2.Ascending numDocs

theorem AllAscending.alter {m : FieldMap τ} {f : Postings τ → Postings τ} (name : String)
    (hm : AllAscending m numDocs) (hf : ∀ q, q.Ascending numDocs → (f q).Ascending numDocs) :
    AllAscending (m.alter name f) numDocs := by
  induction m with
  | nil =>
    intro e he
    obtain rfl := List.mem_singleton.mp he
    exact hf _ (ascending_empty numDocs)
  | cons g m ih =>
    obtain ⟨hg, hrest⟩ := List.forall_mem_cons.mp hm
    unfold FieldMap.alter
    split_ifs
    · exact List.forall_mem_cons.mpr ⟨hf _ (ascending_empty numDocs), hm⟩
    · exact List.forall_mem_cons.mpr ⟨hf _ hg, hrest⟩
    · exact List.forall_mem_cons.mpr ⟨hg, ih hrest⟩

theorem AllAscending.postings {m : FieldMap τ} (hm : AllAscending m numDocs) (name : String) :
    (m.postings name).Ascending numDocs := by
  unfold FieldMap.postings
  cases hl : m.lookup name with
  | none => exact ascending_empty numDocs
  | some q => exact hm _ (mem_of_lookup hl)

end

end Postings

/-! ### Built shards -/

namespace Shard

/-- The shards that can be built up value by value. -/
inductive Built : Shard → Prop where
  | empty {numDocs : Nat} {s : Shard} (h : empty? numDocs = some s) : Built s
  | intField {s : Shard} (field : String) (h : Built s) : Built (s.withIntField field)
  | stringField {s : Shard} (field : String) (h : Built s) : Built (s.withStringField field)
  | int {s s' : Shard} {field : String} {doc : Nat} {value : Int} (h : Built s)
      (hs : s.addInt? field doc value = some s') : Built s'
  | string {s s' : Shard} {field : String} {doc : Nat} {value : String} (h : Built s)
      (hs : s.addString? field doc value = some s') : Built s'

section

variable {s s' : Shard} {field : String}

/-- Steps that keep shards built may be repeated. -/
theorem Built.foldlM {α : Type} {f : Shard → α → Option Shard} {xs : List α} (hs : s.Built)
    (step : ∀ t x t', Built t → f t x = some t' → t'.Built) (h : xs.foldlM f s = some s') :
    s'.Built :=
  foldlM_induct (fun _ t => t.Built) hs (fun _ x _ t t' _ ht hx => step t x t' ht hx) h

theorem Built.intColumn {values : List Int} (h : s.Built)
    (hs : s.addIntColumn? field values = some s') : s'.Built :=
  (h.intField field).foldlM (fun _ _ _ ht hx => ht.int hx) hs

theorem Built.stringColumn {values : List String} (h : s.Built)
    (hs : s.addStringColumn? field values = some s') : s'.Built :=
  (h.stringField field).foldlM (fun _ _ _ ht hx => ht.string hx) hs

/-- So may steps that can be refused. -/
theorem Built.foldlM_ok {α : Type} {f : Shard → α → Except Failure Shard} {xs : List α}
    (hs : s.Built) (step : ∀ t x t', Built t → f t x = .ok t' → t'.Built)
    (h : xs.foldlM f s = .ok s') : s'.Built := by
  refine hs.foldlM (fun t x t' ht hx => ?_) (foldlM_toOption h)
  cases hrun : f t x with
  | error e =>
    rw [hrun] at hx
    cases hx
  | ok u =>
    rw [hrun] at hx
    cases hx
    exact step t x t' ht hrun

theorem Built.column {τ : Type} {column : Column τ} {numDocs : Nat}
    {add? : Shard → Nat → τ → Option Shard} (h : s.Built)
    (step : ∀ t doc v t', Built t → add? t doc v = some t' → t'.Built)
    (hs : ShardColumns.addColumn numDocs add? s field column = .ok s') : s'.Built := by
  unfold ShardColumns.addColumn at hs
  split_ifs at hs
  split at hs
  · rename_i hrun
    cases hs
    exact h.foldlM (fun t x t' => step t x.1 x.2 t') hrun
  · cases hs

/-- The shards that columns describe can be built value by value. -/
theorem built_of_toShard {d : ShardColumns} (h : d.toShard = .ok s) : s.Built := by
  unfold ShardColumns.toShard at h
  split at h
  · cases h
  · rename_i s0 hempty
    obtain ⟨s1, hints, hstrings⟩ := exists_of_bind_ok h
    have h1 : s1.Built := by
      refine Built.foldlM_ok (.empty hempty) (fun t x t' ht hx => ?_) hints
      exact (ht.intField x.1).column (fun _ _ _ _ hu hv => hu.int hv) hx
    refine h1.foldlM_ok (fun t x t' ht hx => ?_) hstrings
    exact (ht.stringField x.1).column (fun _ _ _ _ hu hv => hu.string hv) hx

end

/-- All fields of both types are ascending. -/
structure Ascending (s : Shard) : Prop where
  ints : Postings.AllAscending s.ints s.numDocs
  strings : Postings.AllAscending s.strings s.numDocs

theorem Built.ascending {s : Shard} (h : s.Built) : s.Ascending := by
  induction h with
  | empty h =>
    unfold empty? at h
    split_ifs at h
    cases h
    refine ⟨?_, ?_⟩ <;>
    · intro e he
      cases he
  | intField field _ ih => exact ⟨ih.ints.alter field fun q hq => hq, ih.strings⟩
  | stringField field _ ih => exact ⟨ih.ints, ih.strings.alter field fun q hq => hq⟩
  | @int s s' field doc value _ hs ih =>
    unfold addInt? at hs
    split_ifs at hs with hd
    cases hs
    exact ⟨ih.ints.alter field fun q hq => hq.add hd value, ih.strings⟩
  | @string s s' field doc value _ hs ih =>
    unfold addString? at hs
    split_ifs at hs with hd
    cases hs
    exact ⟨ih.ints, ih.strings.alter field fun q hq => hq.add hd value⟩

theorem Ascending.intPostings {s : Shard} (h : s.Ascending) (field : String) :
    (s.intPostings field).Ascending s.numDocs :=
  h.ints.postings field

theorem Ascending.stringPostings {s : Shard} (h : s.Ascending) (field : String) :
    (s.stringPostings field).Ascending s.numDocs :=
  h.strings.postings field

end Shard

end Cohort
