import Mathlib.Algebra.Ring.Int.Defs
import Cohort.Proofs.Session.Tallies
import Cohort.Proofs.Shard.Cursor
import Cohort.Session.Counters

/-!
# Counters — an update is a list of additions

Whatever an update reads, and in whatever chunks it reads it, what it does to the counters is
`addAll?`: additions to single documents, one after the other. So counters stay 32-bit numbers, and
where an update ends each of them has grown by the total that was added for its document, modulo
`2 ^ 32`.
-/

namespace Cohort

/-! ### Visits of terms -/

section Visits

variable {τ π σ : Type} [LinearOrder τ]

/-- The posting lists that are visited, in order, each with what comes with its term. -/
def visitedLists (postings : Postings τ) (terms : List (τ × π)) : List (List Nat × π) :=
  (terms.mergeSort fun a b => !decide (b.1 < a.1)).filterMap fun e =>
    (postings.find? e.1).map (·, e.2)

theorem visitTerms?_eq (chunk : Nat) (postings : Postings τ) (terms : List (τ × π))
    (visit : π → σ → List Nat → Option σ) (s : σ) :
    visitTerms? chunk postings terms visit s = (visitedLists postings terms).foldlM
      (fun s v => (chunks chunk v.1).foldlM (visit v.2) s) s := by
  -- a seek finds its term wherever the one before it has left the cursor
  suffices main : ∀ (sorted : List (τ × π)) (position : Nat) (s : σ),
      (sorted.foldlM (visitTerm? chunk visit) (Cursor.mk postings position, s)).map (·.2) =
        (sorted.filterMap fun e => (postings.find? e.1).map (·, e.2)).foldlM
          (fun s v => (chunks chunk v.1).foldlM (visit v.2) s) s from main _ 0 s
  intro sorted
  induction sorted with
  | nil => exact fun _ _ => rfl
  | cons e sorted ih =>
    intro position s
    obtain ⟨next, hseek⟩ := (Cursor.mk postings position).seekExact_eq e.1
    rw [List.foldlM_cons, visitTerm?, hseek]
    simp only [drain_eq]
    cases hdocs : postings.find? e.1 with
    | none =>
      rw [List.filterMap_cons_none (by rw [hdocs, Option.map_none])]
      exact ih next s
    | some docs =>
      rw [List.filterMap_cons_some (by rw [hdocs, Option.map_some]), List.foldlM_cons]
      show ((((chunks chunk docs).foldlM (visit e.2) s).map (Cursor.mk postings next, ·)).bind
        _).map _ = Option.bind ((chunks chunk docs).foldlM (visit e.2) s) _
      cases (chunks chunk docs).foldlM (visit e.2) s with
      | none => rfl
      | some t => exact ih next t

/-- The lists that are visited are those of the field, and what comes with them was listed. -/
theorem exists_of_mem_visitedLists {numDocs : Nat} {postings : Postings τ}
    (hp : postings.Ascending numDocs) {terms : List (τ × π)} {v : List Nat × π}
    (hv : v ∈ visitedLists postings terms) :
    ∃ term, (term, v.2) ∈ terms ∧ (term, v.1) ∈ postings.entries := by
  obtain ⟨e, he, hv⟩ := List.mem_filterMap.mp hv
  obtain ⟨docs, hdocs, rfl⟩ := Option.map_eq_some_iff.mp hv
  exact ⟨e.1, List.mem_mergeSort.mp he, (Postings.find?_eq_some hp.terms).mp hdocs⟩

/-- What every visit keeps holds at the end. -/
theorem visitTerms?_keeps {chunk : Nat} {postings : Postings τ} {terms : List (τ × π)}
    {visit : π → σ → List Nat → Option σ} (I : σ → Prop) {s s' : σ} (hs : I s)
    (step : ∀ p docs t t', I t → visit p t docs = some t' → I t')
    (h : visitTerms? chunk postings terms visit s = some s') : I s' := by
  rw [visitTerms?_eq] at h
  refine foldlM_keeps I hs (fun v _ t t' ht hv => ?_) h
  exact foldlM_keeps I ht (fun docs _ t t' ht hd => step v.2 docs t t' ht hd) hv

end Visits

namespace Counters

variable {m m' : Counters} {doc numDocs chunk : Nat} {delta : Int} {g : Grouping}

/-! ### Well-formed counters -/

/-- One counter for each of the documents, all of them 32-bit numbers. -/
structure WellFormed (m : Counters) (numDocs : Nat) : Prop where
  size_eq : m.size = numDocs
  wrapped : ∀ (d : Nat) (v : Int), m[d]? = some v → wrap32 v = v

theorem wellFormed_zero (numDocs : Nat) : (zero numDocs).WellFormed numDocs := by
  refine ⟨Array.size_replicate, fun d v hv => ?_⟩
  unfold zero at hv
  rw [Array.getElem?_replicate] at hv
  split_ifs at hv
  cases hv
  rfl

theorem add?_eq_some (h : m.add? doc delta = some m') :
    doc < m.size ∧ m' = m.modify doc fun v => wrap32 (v + delta) := by
  unfold add? at h
  split_ifs at h with hd
  exact ⟨hd, (Option.some.inj h).symm⟩

theorem getElem?_add? (h : m.add? doc delta = some m') (d : Nat) :
    m'[d]? = m[d]?.map fun v => if doc = d then wrap32 (v + delta) else v := by
  obtain ⟨-, rfl⟩ := add?_eq_some h
  rw [Array.getElem?_modify]
  split_ifs
  · rfl
  · exact Option.map_id'.symm

theorem WellFormed.add? (hm : m.WellFormed numDocs) (h : m.add? doc delta = some m') :
    m'.WellFormed numDocs := by
  refine ⟨?_, fun d v hv => ?_⟩
  · obtain ⟨-, rfl⟩ := add?_eq_some h
    exact Array.size_modify.trans hm.size_eq
  · rw [getElem?_add? h] at hv
    obtain ⟨u, hu, rfl⟩ := Option.map_eq_some_iff.mp hv
    split_ifs
    · exact Int.bmod_bmod
    · exact hm.wrapped d u hu

theorem WellFormed.addToAll? (hm : m.WellFormed numDocs) {docs : List Nat}
    (h : Counters.addToAll? delta m docs = some m') : m'.WellFormed numDocs :=
  foldlM_keeps (WellFormed · numDocs) hm (fun _ _ _ _ ht hd => ht.add? hd) h

theorem WellFormed.addByGroup? (hm : m.WellFormed numDocs) {deltas : List Int}
    (h : m.addByGroup? g chunk deltas = some m') : m'.WellFormed numDocs := by
  refine foldlM_keeps (WellFormed · numDocs) hm (fun docs _ t t' ht h => ?_) h
  obtain ⟨groups, -, h⟩ := Option.bind_eq_some_iff.mp h
  refine foldlM_keeps (WellFormed · numDocs) ht (fun e _ t t' ht h => ?_) h
  simp only at h
  split at h
  · exact ht.add? h
  · cases h
    exact ht

theorem WellFormed.addByTerm? (hm : m.WellFormed numDocs) {feed : Feed}
    {conditions : List Condition} {deltas : List Int}
    (h : m.addByTerm? feed conditions deltas = some m') : m'.WellFormed numDocs := by
  refine foldlM_keeps (WellFormed · numDocs) hm (fun field _ t t' ht h => ?_) h
  obtain ⟨u, hu, h⟩ := Option.bind_eq_some_iff.mp h
  have hu := visitTerms?_keeps (WellFormed · numDocs) ht (fun _ _ _ _ ht h => ht.addToAll? h) hu
  exact visitTerms?_keeps (WellFormed · numDocs) hu (fun _ _ _ _ ht h => ht.addToAll? h) h

theorem WellFormed.addByTable? {s s' : Counters × DeltaTable} (hs : s.1.WellFormed numDocs)
    {deltas : List GroupDelta} {docs : List Nat}
    (h : Counters.addByTable? g deltas s docs = some s') : s'.1.WellFormed numDocs := by
  obtain ⟨table, -, h⟩ := Option.bind_eq_some_iff.mp h
  obtain ⟨groups, -, h⟩ := Option.bind_eq_some_iff.mp h
  obtain ⟨m', hm', h⟩ := Option.bind_eq_some_iff.mp h
  obtain ⟨table', -, h⟩ := Option.bind_eq_some_iff.mp h
  cases h
  refine foldlM_keeps (WellFormed · numDocs) hs (fun e _ t t' ht h => ?_) hm'
  obtain ⟨delta?, -, h⟩ := Option.bind_eq_some_iff.mp h
  cases delta? with
  | none =>
    cases h
    exact ht
  | some delta => exact ht.add? h

theorem WellFormed.addByGroupAndTerm? (hm : m.WellFormed numDocs) {feed : Feed}
    {entries : List (Condition × GroupDelta)}
    (h : m.addByGroupAndTerm? feed g entries = some m') : m'.WellFormed numDocs := by
  obtain ⟨s, hs, h⟩ := Option.bind_eq_some_iff.mp h
  obtain ⟨s', hs', h⟩ := Option.bind_eq_some_iff.mp h
  cases h
  have hs := foldlM_keeps (·.1.WellFormed numDocs) (show (m, _).1.WellFormed numDocs from hm)
    (fun field _ t t' ht h =>
      visitTerms?_keeps (·.1.WellFormed numDocs) ht (fun _ _ _ _ ht h => ht.addByTable? h) h) hs
  exact foldlM_keeps (·.1.WellFormed numDocs) hs
    (fun field _ t t' ht h =>
      visitTerms?_keeps (·.1.WellFormed numDocs) ht (fun _ _ _ _ ht h => ht.addByTable? h) h) hs'

/-! ### Additions -/

/-- Adds to single documents, one after the other. -/
def addAll? (m : Counters) (adds : List (Nat × Int)) : Option Counters :=
  adds.foldlM (fun m a => m.add? a.1 a.2) m

/-- What is added to the counter of a document in all. -/
def totalFor (doc : Nat) (adds : List (Nat × Int)) : Int :=
  (adds.map fun a => if a.1 = doc then a.2 else 0).sum

variable {adds adds' : List (Nat × Int)}

theorem totalFor_append (doc : Nat) (adds adds' : List (Nat × Int)) :
    totalFor doc (adds ++ adds') = totalFor doc adds + totalFor doc adds' := by
  unfold totalFor
  rw [List.map_append, List.sum_append]

theorem totalFor_flatMap {α : Type} (doc : Nat) (xs : List α) (f : α → List (Nat × Int)) :
    totalFor doc (xs.flatMap f) = (xs.map fun x => totalFor doc (f x)).sum := by
  induction xs with
  | nil => rfl
  | cons x xs ih => rw [List.flatMap_cons, totalFor_append, ih, List.map_cons, List.sum_cons]

theorem addAll?_append (m : Counters) (adds adds' : List (Nat × Int)) :
    m.addAll? (adds ++ adds') = (m.addAll? adds).bind (·.addAll? adds') :=
  List.foldlM_append

theorem addAll?_flatMap {α : Type} (m : Counters) (xs : List α) (f : α → List (Nat × Int)) :
    m.addAll? (xs.flatMap f) = xs.foldlM (fun m x => m.addAll? (f x)) m :=
  foldlM_flatMap (fun (m : Counters) (a : Nat × Int) => m.add? a.1 a.2) f xs m

/-- Additions to documents that have counters go through. -/
theorem exists_addAll? (h : ∀ a ∈ adds, a.1 < m.size) : ∃ m', m.addAll? adds = some m' := by
  have hstep : ∀ a ∈ adds, ∀ t : Counters, t.size = m.size →
      ∃ t', t.add? a.1 a.2 = some t' ∧ t'.size = m.size := by
    intro a ha t ht
    have hadd : t.add? a.1 a.2 = some (t.modify a.1 fun v => wrap32 (v + a.2)) :=
      if_pos (ht.symm ▸ h a ha)
    exact ⟨_, hadd, Array.size_modify.trans ht⟩
  obtain ⟨m', hm', -⟩ := exists_foldlM_of (fun t : Counters => t.size = m.size) rfl hstep
  exact ⟨m', hm'⟩

/-- Every counter grows by the total of its document, modulo `2 ^ 32`. -/
theorem WellFormed.getElem?_addAll? (hm : m.WellFormed numDocs) (h : m.addAll? adds = some m')
    (d : Nat) : m'[d]? = m[d]?.map fun v => wrap32 (v + totalFor d adds) := by
  induction adds generalizing m with
  | nil =>
    obtain rfl : m = m' := Option.some.inj h
    cases hv : m[d]? with
    | none => rfl
    | some v =>
      have htotal : totalFor d [] = 0 := rfl
      rw [Option.map_some, htotal, Int.add_zero, hm.wrapped d v hv]
  | cons a adds ih =>
    have htotal : totalFor d (a :: adds) = (if a.1 = d then a.2 else 0) + totalFor d adds := by
      unfold totalFor
      rw [List.map_cons, List.sum_cons]
    obtain ⟨t, ht, h⟩ := Option.bind_eq_some_iff.mp ((List.foldlM_cons ..).symm.trans h)
    rw [ih (hm.add? ht) h, getElem?_add? ht, Option.map_map, htotal]
    refine congrArg (m[d]?.map ·) (funext fun v => ?_)
    simp only [Function.comp_apply]
    split_ifs
    · rw [← Int.add_assoc]
      exact Int.bmod_add_bmod
    · rw [Int.zero_add]

/-! ### By group -/

/-- Adds a delta, if there is one, to the counter of a document. -/
def addIf? (delta? : Option Int) (m : Counters) (doc : Nat) : Option Counters :=
  match delta? with
  | some delta => m.add? doc delta
  | none => some m

/-- The additions to documents whose group has a delta. -/
def groupAdditions (g : Grouping) (delta? : Nat → Option Int) (docs : List Nat) :
    List (Nat × Int) :=
  docs.filterMap fun d => (g.get? d).bind fun x => (delta? x).map (d, ·)

/-- A loop over documents that adds what their groups ask for. -/
theorem foldlM_groupsOf? {f : Counters → Nat → Nat → Option Counters} {delta? : Nat → Option Int}
    {docs : List Nat} (hlt : ∀ d ∈ docs, d < g.len)
    (hf : ∀ d x, g.get? d = some x → ∀ m : Counters, f m d x = addIf? (delta? x) m d)
    (m : Counters) :
    ((g.groupsOf? docs).bind fun groups => (docs.zip groups).foldlM (fun m p => f m p.1 p.2) m) =
      m.addAll? (groupAdditions g delta? docs) := by
  rw [Grouping.foldlM_groupsOf? hlt f m, addAll?, groupAdditions, List.foldlM_filterMap]
  refine foldlM_ext (fun d hd m => ?_) m
  obtain ⟨x, hx⟩ := Grouping.get?_of_lt_len (hlt d hd)
  rw [hx, Option.bind_some, Option.bind_some, hf d x hx]
  cases delta? x <;> rfl

theorem flatMap_groupAdditions_chunks {n : Nat} (hn : 0 < n) (g : Grouping)
    (delta? : Nat → Option Int) (docs : List Nat) :
    (chunks n docs).flatMap (groupAdditions g delta?) = groupAdditions g delta? docs := by
  conv_rhs => rw [← flatten_chunks hn docs]
  unfold groupAdditions
  rw [List.filterMap_flatten, List.flatMap_def]

theorem addByGroup?_eq (m : Counters) (g : Grouping) (chunk : Nat) (deltas : List Int) :
    m.addByGroup? g chunk deltas =
      m.addAll? (groupAdditions g (deltas.toArray[·]?) (List.range g.len)) := by
  rw [← flatMap_groupAdditions_chunks (n := max 1 chunk) (by omega), addAll?_flatMap]
  refine foldlM_ext (fun docs hdocs m => ?_) m
  have hlt : ∀ d ∈ docs, d < g.len := fun d hd => List.mem_range.mp (mem_of_mem_chunks hdocs hd)
  exact foldlM_groupsOf? hlt (fun _ _ _ _ => rfl) m

theorem mem_of_mem_groupAdditions {delta? : Nat → Option Int} {docs : List Nat} {a : Nat × Int}
    (ha : a ∈ groupAdditions g delta? docs) : a.1 ∈ docs := by
  obtain ⟨d, hd, ha⟩ := List.mem_filterMap.mp ha
  obtain ⟨x, -, ha⟩ := Option.bind_eq_some_iff.mp ha
  obtain ⟨delta, -, rfl⟩ := Option.map_eq_some_iff.mp ha
  exact hd

theorem exists_addByGroup? (h : m.size = g.len) (chunk : Nat) (deltas : List Int) :
    ∃ m', m.addByGroup? g chunk deltas = some m' := by
  rw [addByGroup?_eq]
  exact exists_addAll? fun a ha => h.symm ▸ List.mem_range.mp (mem_of_mem_groupAdditions ha)

end Counters

end Cohort
