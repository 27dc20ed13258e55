import Mathlib.Data.Finset.Card
import Cohort.Proofs.DocSet.Members

/-!
# Operations — a history of document sets is a history of subsets

A bank holds sets by their place, and an operation writes the set that it makes to one place. The
same operations work on subsets of `0 .. len - 1`, where they are those of finite sets. One step on
document sets does what it does on subsets, and is refused where that one is (`stands_step?`); so
does a whole history (`stands_run?`). What is held in the end `Represents` its subset, whichever way
it came about: words and bits, members, counts, order and equality are those of the subset.
-/

namespace Cohort.DocSet

/-! ### Subsets -/

/-- Some of the documents below a length. -/
@[ext]
structure Subset where
  len : Nat
  docs : Finset Nat
  lt_len : ∀ i ∈ docs, i < len

namespace Subset

def empty (len : Nat) : Subset := ⟨len, ∅, nofun⟩

def full (len : Nat) : Subset := ⟨len, Finset.range len, fun _ => Finset.mem_range.mp⟩

def ofList? (docs : List Nat) (len : Nat) : Option Subset :=
  if h : ∀ i ∈ docs, i < len then some ⟨len, docs.toFinset, fun i hi => h i (List.mem_toFinset.mp hi)⟩
  else none

def insert? (m : Subset) (i : Nat) : Option Subset :=
  if h : i < m.len then
    some ⟨m.len, insert i m.docs, Finset.forall_mem_insert _ _ _ |>.mpr ⟨h, m.lt_len⟩⟩
  else none

/-- Inserts `i` and says whether it was there before. -/
def insertNew? (m : Subset) (i : Nat) : Option (Bool × Subset) :=
  (m.insert? i).map fun n => (decide (i ∈ m.docs), n)

def erase? (m : Subset) (i : Nat) : Option Subset :=
  if i < m.len then
    some ⟨m.len, m.docs.erase i, fun j hj => m.lt_len j (Finset.mem_of_mem_erase hj)⟩
  else none

def clear (m : Subset) : Subset := empty m.len

def complement (m : Subset) : Subset :=
  ⟨m.len, Finset.range m.len \ m.docs, fun _ hi =>
    Finset.mem_range.mp (Finset.mem_sdiff.mp hi).1⟩

def inter? (m n : Subset) : Option Subset :=
  if m.len = n.len then
    some ⟨m.len, m.docs ∩ n.docs, fun i hi => m.lt_len i (Finset.mem_inter.mp hi).1⟩
  else none

def union? (m n : Subset) : Option Subset :=
  if h : m.len = n.len then
    some ⟨m.len, m.docs ∪ n.docs, fun i hi =>
      (Finset.mem_union.mp hi).elim (m.lt_len i) fun hn => h ▸ n.lt_len i hn⟩
  else none

end Subset

/-! ### Operations on a bank -/

/-- What it takes to work with sets of documents. -/
structure Algebra (σ : Type) where
  empty : Nat → σ
  full : Nat → σ
  ofList? : List Nat → Nat → Option σ
  insert? : σ → Nat → Option σ
  insertNew? : σ → Nat → Option (Bool × σ)
  erase? : σ → Nat → Option σ
  clear : σ → σ
  complement : σ → σ
  inter? : σ → σ → Option σ
  union? : σ → σ → Option σ

def docSets : Algebra DocSet :=
  ⟨empty, full, ofList?, insert?, insertNew?, erase?, clear, complement, inter?, union?⟩

def subsets : Algebra Subset :=
  ⟨.empty, .full, Subset.ofList?, Subset.insert?, Subset.insertNew?, Subset.erase?, .clear,
    .complement, Subset.inter?, Subset.union?⟩

/-- An operation, with the place it writes to and the places it reads. A set is changed in place when
they are the same. -/
inductive Op where
  | empty (r len : Nat)
  | full (r len : Nat)
  | ofList (r : Nat) (docs : List Nat) (len : Nat)
  | insert (r doc : Nat)
  | insertNew (r doc : Nat)
  | erase (r doc : Nat)
  | clear (r : Nat)
  | complement (r a : Nat)
  | inter (r a b : Nat)
  | union (r a b : Nat)

section Runs

variable {σ : Type} (A : Algebra σ)

/-- The bank after an operation, and its answer if it gives one. -/
def Op.step? (bank : Nat → σ) : Op → Option (Option Bool × (Nat → σ))
  | empty r len => some (none, Function.update bank r (A.empty len))
  | full r len => some (none, Function.update bank r (A.full len))
  | ofList r docs len => (A.ofList? docs len).map fun s => (none, Function.update bank r s)
  | insert r doc => (A.insert? (bank r) doc).map fun s => (none, Function.update bank r s)
  | insertNew r doc => (A.insertNew? (bank r) doc).map fun (before, s) =>
      (some before, Function.update bank r s)
  | erase r doc => (A.erase? (bank r) doc).map fun s => (none, Function.update bank r s)
  | clear r => some (none, Function.update bank r (A.clear (bank r)))
  | complement r a => some (none, Function.update bank r (A.complement (bank a)))
  | inter r a b => (A.inter? (bank a) (bank b)).map fun s => (none, Function.update bank r s)
  | union r a b => (A.union? (bank a) (bank b)).map fun s => (none, Function.update bank r s)

/-- A history: the answers in order, and the bank at its end. -/
def run? : List Op → (Nat → σ) → Option (List (Option Bool) × (Nat → σ))
  | [], bank => some ([], bank)
  | op :: ops, bank => (op.step? A bank).bind fun (answer, bank) =>
      (run? ops bank).map fun (answers, bank) => (answer :: answers, bank)

/-- The bank before the first operation. -/
def blank : Nat → σ := fun _ => A.empty 0

end Runs

/-! ### Standing for a subset -/

/-- The set holds the documents of the subset and no bit besides. -/
def Stands (s : DocSet) (m : Subset) : Prop := s.Comprises m.len fun i => decide (i ∈ m.docs)

variable {s t : DocSet} {m n : Subset}

/-- All that can be seen of a set is what the subset has. -/
structure Represents (s : DocSet) (m : Subset) : Prop where
  len_eq : s.len = m.len
  size_words : s.words.size = (m.len + 63) / 64
  bit_past : ∀ i, m.len ≤ i → bitAt s.words i = false
  contains_eq : ∀ i, s.contains i = decide (i ∈ m.docs)
  contains_past : ∀ i, m.len ≤ i → s.contains i = false
  card_eq : s.card = m.docs.card
  cocard_eq : s.cocard = (Finset.range m.len \ m.docs).card
  pairwise_toList : s.toList.Pairwise (· < ·)
  mem_toList : ∀ i, i ∈ s.toList ↔ i ∈ m.docs

theorem Stands.contains_eq (h : s.Stands m) (i : Nat) : s.contains i = decide (i ∈ m.docs) := by
  by_cases hi : i < m.len
  · exact Comprises.contains_eq h i hi
  · have hnot : i ∉ m.docs := fun hmem => hi (m.lt_len i hmem)
    rw [DocSet.contains_eq, h.len_eq, decide_eq_false hi, Bool.false_and, decide_eq_false hnot]

theorem Stands.mem_toList (h : s.Stands m) (i : Nat) : i ∈ s.toList ↔ i ∈ m.docs := by
  rw [DocSet.mem_toList, ← h.wellFormed.contains_eq_bitAt, h.contains_eq, decide_eq_true_eq]

theorem Stands.card_eq (h : s.Stands m) : s.card = m.docs.card := by
  have hdocs : s.toList.toFinset = m.docs := by
    ext i
    rw [List.mem_toFinset, h.mem_toList]
  rw [card_eq_length, ← List.toFinset_card_of_nodup s.nodup_toList, hdocs]

theorem Stands.represents (h : s.Stands m) : s.Represents m where
  len_eq := h.len_eq
  size_words := h.wellFormed.sized.trans (by rw [h.len_eq]; rfl)
  bit_past i hi := by
    rw [Bool.eq_false_iff]
    intro hbit
    have := h.wellFormed.lt_len i hbit
    rw [h.len_eq] at this
    omega
  contains_eq := h.contains_eq
  contains_past i hi := by
    rw [h.contains_eq, decide_eq_false]
    exact fun hmem => absurd (m.lt_len i hmem) (Nat.not_lt.mpr hi)
  card_eq := h.card_eq
  cocard_eq := by
    have hsub : m.docs ⊆ Finset.range m.len := fun i hi => Finset.mem_range.mpr (m.lt_len i hi)
    rw [Finset.card_sdiff_of_subset hsub, Finset.card_range, ← h.card_eq, ← h.len_eq]
    rfl
  pairwise_toList := toList_pairwise s
  mem_toList := h.mem_toList

/-- Sets are equal when the subsets that they stand for are. -/
theorem Stands.eq_iff (hs : s.Stands m) (ht : t.Stands n) : s = t ↔ m = n := by
  constructor
  · rintro rfl
    refine Subset.ext (hs.len_eq.symm.trans ht.len_eq) (Finset.ext fun i => ?_)
    rw [← hs.mem_toList, ht.mem_toList]
  · rintro rfl
    exact hs.wellFormed.ext ht.wellFormed (hs.len_eq.trans ht.len_eq.symm) fun i =>
      (hs.contains_eq i).trans (ht.contains_eq i).symm

/-! ### Operations stand for operations -/

section Rel

variable {α α' β β' : Type} {R : α → β → Prop} {R' : α' → β' → Prop} {x : Option α} {y : Option β}

theorem rel_map {f : α → α'} {g : β → β'} (h : Option.Rel R x y)
    (hfg : ∀ a b, R a b → R' (f a) (g b)) : Option.Rel R' (x.map f) (y.map g) := by
  cases h with
  | none => exact .none
  | some hab => exact .some (hfg _ _ hab)

theorem rel_bind {f : α → Option α'} {g : β → Option β'} (h : Option.Rel R x y)
    (hfg : ∀ a b, R a b → Option.Rel R' (f a) (g b)) : Option.Rel R' (x.bind f) (y.bind g) := by
  cases h with
  | none => exact .none
  | some hab => exact hfg _ _ hab

end Rel

theorem stands_empty (len : Nat) : (empty len).Stands (.empty len) :=
  (comprises_empty len).congr fun i _ => by simp [Subset.empty]

theorem stands_full (len : Nat) : (full len).Stands (.full len) :=
  (comprises_full len).congr fun i hi => by simp [Subset.full, hi]

theorem stands_ofList? (docs : List Nat) (len : Nat) :
    Option.Rel Stands (ofList? docs len) (Subset.ofList? docs len) := by
  unfold Subset.ofList?
  split_ifs with h
  · obtain ⟨t, ht⟩ := exists_ofList? h
    rw [ht]
    exact .some ((comprises_ofList? ht).congr fun i _ => by simp)
  · rw [ofList?_eq_none h]
    exact .none

theorem Stands.insert? (h : s.Stands m) (i : Nat) :
    Option.Rel Stands (s.insert? i) (m.insert? i) := by
  unfold Subset.insert?
  split_ifs with hi
  · obtain ⟨t, ht⟩ := exists_insert? (h.len_eq.symm ▸ hi : i < s.len)
    rw [ht]
    exact .some ((Comprises.insert? h ht).congr fun j _ => by simp [Bool.or_comm])
  · have hnone : s.insert? i = none := if_neg (h.len_eq.symm ▸ hi)
    rw [hnone]
    exact .none

theorem Stands.insertNew? (h : s.Stands m) (i : Nat) :
    Option.Rel (fun a b => a.1 = b.1 ∧ a.2.Stands b.2) (s.insertNew? i) (m.insertNew? i) := by
  rw [insertNew?_eq]
  exact rel_map (h.insert? i) fun _ _ hst => ⟨h.contains_eq i, hst⟩

theorem Stands.erase? (h : s.Stands m) (i : Nat) :
    Option.Rel Stands (s.erase? i) (m.erase? i) := by
  unfold Subset.erase?
  split_ifs with hi
  · have ht : s.erase? i = some _ := if_pos (h.len_eq.symm ▸ hi)
    rw [ht]
    exact .some ((Comprises.erase? h ht).congr fun j _ => by simp [Bool.and_comm])
  · have hnone : s.erase? i = none := if_neg (h.len_eq.symm ▸ hi)
    rw [hnone]
    exact .none

theorem Stands.clear (h : s.Stands m) : s.clear.Stands m.clear :=
  (Comprises.clear h).congr fun i _ => by simp [Subset.clear, Subset.empty]

theorem Stands.complement (h : s.Stands m) : s.complement.Stands m.complement :=
  (Comprises.complement h).congr fun i hi => by simp [Subset.complement, hi]

theorem Stands.inter? (hs : s.Stands m) (ht : t.Stands n) :
    Option.Rel Stands (s.inter? t) (m.inter? n) := by
  unfold Subset.inter?
  split_ifs with hlen
  · have ht' : t.Comprises m.len fun i => decide (i ∈ n.docs) := hlen.symm ▸ ht
    obtain ⟨u, hu, hcomprises⟩ := Comprises.inter? hs ht'
    rw [hu]
    exact .some (hcomprises.congr fun i _ => by simp)
  · have hnone : s.inter? t = none := if_neg (by rwa [hs.len_eq, ht.len_eq])
    rw [hnone]
    exact .none

theorem Stands.union? (hs : s.Stands m) (ht : t.Stands n) :
    Option.Rel Stands (s.union? t) (m.union? n) := by
  unfold Subset.union?
  split_ifs with hlen
  · have ht' : t.Comprises m.len fun i => decide (i ∈ n.docs) := hlen.symm ▸ ht
    obtain ⟨u, hu, hcomprises⟩ := Comprises.union? hs ht'
    rw [hu]
    exact .some (hcomprises.congr fun i _ => by simp)
  · have hnone : s.union? t = none := if_neg (by rwa [hs.len_eq, ht.len_eq])
    rw [hnone]
    exact .none

/-! ### Histories -/

section Histories

variable {bank : Nat → DocSet} {marks : Nat → Subset}

theorem stands_update (h : ∀ r, (bank r).Stands (marks r)) (hs : s.Stands m) (r q : Nat) :
    (Function.update bank r s q).Stands (Function.update marks r m q) := by
  by_cases hq : q = r
  · subst hq
    rwa [Function.update_self, Function.update_self]
  · rw [Function.update_of_ne hq, Function.update_of_ne hq]
    exact h q

/-- One operation on document sets does what it does on subsets, with the same answer. -/
theorem stands_step? (h : ∀ r, (bank r).Stands (marks r)) (op : Op) :
    Option.Rel (fun a b => a.1 = b.1 ∧ ∀ r, (a.2 r).Stands (b.2 r))
      (op.step? docSets bank) (op.step? subsets marks) := by
  -- an operation that gives a set, and no answer, writes it
  have written : ∀ (r : Nat) {x : Option DocSet} {y : Option Subset}, Option.Rel Stands x y →
      Option.Rel (fun a b => a.1 = b.1 ∧ ∀ r, (a.2 r).Stands (b.2 r))
        (x.map fun s => ((none : Option Bool), Function.update bank r s))
        (y.map fun m => ((none : Option Bool), Function.update marks r m)) :=
    fun r _ _ hxy => rel_map hxy fun _ _ hst => ⟨rfl, stands_update h hst r⟩
  cases op with
  | empty r len => exact .some ⟨rfl, stands_update h (stands_empty len) r⟩
  | full r len => exact .some ⟨rfl, stands_update h (stands_full len) r⟩
  | ofList r docs len => exact written r (stands_ofList? docs len)
  | insert r doc => exact written r ((h r).insert? doc)
  | insertNew r doc =>
    exact rel_map ((h r).insertNew? doc) fun _ _ hst =>
      ⟨congrArg some hst.1, stands_update h hst.2 r⟩
  | erase r doc => exact written r ((h r).erase? doc)
  | clear r => exact .some ⟨rfl, stands_update h (h r).clear r⟩
  | complement r a => exact .some ⟨rfl, stands_update h (h a).complement r⟩
  | inter r a b => exact written r ((h a).inter? (h b))
  | union r a b => exact written r ((h a).union? (h b))

/-- So does a history. -/
theorem stands_run? (ops : List Op) (h : ∀ r, (bank r).Stands (marks r)) :
    Option.Rel (fun a b => a.1 = b.1 ∧ ∀ r, (a.2 r).Stands (b.2 r))
      (run? docSets ops bank) (run? subsets ops marks) := by
  induction ops generalizing bank marks with
  | nil => exact .some ⟨rfl, h⟩
  | cons op ops ih =>
    refine rel_bind (stands_step? h op) fun a b hab => ?_
    exact rel_map (ih hab.2) fun _ _ hrest => ⟨congrArg₂ _ hab.1 hrest.1, hrest.2⟩

/-- Whatever is done to a bank of sets: it goes through just when it does on subsets, gives the same
answers, and leaves sets that represent those subsets and are equal just when they are. -/
theorem run?_represents (ops : List Op) :
    match run? subsets ops (blank subsets) with
    | none => run? docSets ops (blank docSets) = none
    | some (answers, marks) => ∃ bank, run? docSets ops (blank docSets) = some (answers, bank) ∧
        (∀ r, (bank r).Represents (marks r)) ∧
        ∀ r q, bank r = bank q ↔ (marks r).len = (marks q).len ∧ (marks r).docs = (marks q).docs := by
  have hrun := stands_run? ops fun _ => stands_empty 0
  -- both histories go through, or neither does
  generalize hx : run? docSets ops (blank docSets) = x
  generalize hy : run? subsets ops (blank subsets) = y
  have hxy : Option.Rel _ x y := hx ▸ hy ▸ hrun
  cases hxy with
  | none => rfl
  | @some a b hab =>
    obtain ⟨hanswers, hstands⟩ := hab
    refine ⟨a.2, by rw [← hanswers], fun r => (hstands r).represents, fun r q => ?_⟩
    rw [(hstands r).eq_iff (hstands q), Subset.ext_iff]

example : (run? docSets [.ofList 0 [0, 63, 64, 127, 149] 150, .insertNew 0 64, .insertNew 0 65,
    .complement 1 0, .erase 0 0, .inter 1 1 0, .complement 0 0, .complement 0 0]
      (blank docSets)).map (fun r => (r.1, (r.2 0).toList, (r.2 1).card)) =
    some ([none, some true, some false, none, none, none, none, none], [63, 64, 65, 127, 149], 0) := by
  decide +kernel

end Histories

end Cohort.DocSet
