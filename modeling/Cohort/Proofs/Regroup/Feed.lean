import Cohort.Proofs.Grouping.Pass

/-!
# Feeds — what a pass over posting lists can do to the groups

A marking pass only ever moves documents to groups that its destinations name, whatever the posting
lists are and however they are cut into chunks. It goes through if the lists name documents that
exist and the grouping accepts the destinations.
-/

namespace Cohort.Marking

open Grouping (Overwrites)

variable {P : Nat → Prop} {m m' : Marking} {destination : Nat → Option Nat}

/-- A visit leaves all as it was, if the document was moved before or its group has no destination,
or moves the document there. -/
theorem visit?_cases {doc : Nat} (hm : m.visit? destination doc = some m') :
    (m' = m ∧ (m.moved.contains doc = true ∨
      ∃ x, m.grouping.get? doc = some x ∧ destination x = none)) ∨
    (m.moved.contains doc = false ∧ ∃ x y, m.grouping.get? doc = some x ∧
      destination x = some y ∧ m.grouping.set? doc y = some m'.grouping ∧
      m.moved.insert? doc = some m'.moved) := by
  unfold visit? at hm
  split_ifs at hm with hmoved
  · cases hm
    exact .inl ⟨rfl, .inl hmoved⟩
  · obtain ⟨x, hx, hm⟩ := Option.bind_eq_some_iff.mp hm
    cases hy : destination x with
    | none =>
      rw [hy] at hm
      cases hm
      exact .inl ⟨rfl, .inr ⟨x, hx, hy⟩⟩
    | some y =>
      rw [hy] at hm
      obtain ⟨g, hg, hm⟩ := Option.bind_eq_some_iff.mp hm
      obtain ⟨s, hs, hm⟩ := Option.bind_eq_some_iff.mp hm
      cases hm
      exact .inr ⟨by simpa using hmoved, x, y, hx, hy, hg, hs⟩

theorem visitAll?_eq_foldlM_chunks (chunk : Nat) (destination : Nat → Option Nat) (m : Marking)
    (docs : List Nat) : m.visitAll? chunk destination docs =
      (chunks chunk docs).foldlM (fun m docs => docs.foldlM (visit? destination) m) m :=
  drain_eq chunk docs _ m

theorem overwrites_visit? (hdest : ∀ x y, destination x = some y → P y) {doc : Nat}
    (hm : m.visit? destination doc = some m') : Overwrites P m.grouping m'.grouping := by
  rcases visit?_cases hm with ⟨rfl, -⟩ | ⟨-, x, y, -, hy, hg, -⟩
  · exact Overwrites.refl _
  · exact Overwrites.of_set? (hdest x y hy) hg

/-- A loop of steps that overwrite. -/
theorem overwrites_foldlM {ι : Type} {xs : List ι} {step : Marking → ι → Option Marking}
    (hstep : ∀ x ∈ xs, ∀ t t', step t x = some t' → Overwrites P t.grouping t'.grouping)
    (hm : xs.foldlM step m = some m') : Overwrites P m.grouping m'.grouping :=
  foldlM_relates (R := fun m m' : Marking => Overwrites P m.grouping m'.grouping)
    (fun m => Overwrites.refl m.grouping) (fun _ _ _ h1 h2 => Overwrites.trans h1 h2) hstep hm

theorem overwrites_visitAll? (hdest : ∀ x y, destination x = some y → P y) {chunk : Nat}
    {docs : List Nat} (hm : m.visitAll? chunk destination docs = some m') :
    Overwrites P m.grouping m'.grouping := by
  rw [visitAll?_eq_foldlM_chunks] at hm
  exact overwrites_foldlM
    (fun _ _ _ _ hc => overwrites_foldlM (fun _ _ _ _ hd => overwrites_visit? hdest hd) hc) hm

theorem overwrites_finish? {chunk : Nat} {f : Nat → Nat} {g' : Grouping}
    (hf : ∀ x, f x = x ∨ P (f x)) (hm : m.finish? chunk f = some g') :
    Overwrites P m.grouping g' := by
  refine (Grouping.moves_of_mapGroups? hm).overwrites fun d x y _ hy => ?_
  cases hy
  split_ifs
  · exact .inl rfl
  · exact hf x

/-! ### Going through -/

/-- A marking on its way over the documents of `g`. -/
structure Over (g : Grouping) (m : Marking) : Prop where
  frame_eq : m.grouping.frame = g.frame
  len_eq : m.moved.len = g.len

variable {g : Grouping} {docs : List Nat} {chunk : Nat}

theorem over_start {numDocs : Nat} (h : numDocs = g.len) : (start g numDocs).Over g := ⟨rfl, h⟩

theorem Over.exists_visit? (hm : m.Over g) (hdest : ∀ x y, destination x = some y → g.Accepts y)
    {doc : Nat} (hd : doc < g.len) : ∃ m', m.visit? destination doc = some m' ∧ m'.Over g := by
  have hlen : m.grouping.len = g.len := Grouping.len_eq_of_frame hm.frame_eq
  obtain ⟨x, hx⟩ := Grouping.get?_of_lt_len (hlen.symm ▸ hd)
  unfold visit?
  by_cases hmoved : m.moved.contains doc
  · exact ⟨m, by rw [if_pos hmoved]; rfl, hm⟩
  · rw [if_neg hmoved, hx]
    cases hy : destination x with
    | none => exact ⟨m, by simp [hy], hm⟩
    | some y =>
      obtain ⟨h, hh⟩ := Grouping.exists_set? (hlen.symm ▸ hd) ((hdest x y hy).of_frame hm.frame_eq)
      obtain ⟨s, hs⟩ := DocSet.exists_insert? (hm.len_eq.symm ▸ hd)
      refine ⟨⟨h, s⟩, by simp [hy, hh, hs], (Grouping.frame_set? hh).trans hm.frame_eq, ?_⟩
      exact (DocSet.len_insert? hs).trans hm.len_eq

theorem Over.exists_visitAll? (hm : m.Over g) (chunk : Nat)
    (hdest : ∀ x y, destination x = some y → g.Accepts y) (hdocs : ∀ d ∈ docs, d < g.len) :
    ∃ m', m.visitAll? chunk destination docs = some m' ∧ m'.Over g := by
  rw [visitAll?_eq_foldlM_chunks]
  refine exists_foldlM_of (Over g) hm fun c hc t ht => ?_
  refine exists_foldlM_of (Over g) ht fun d hd u hu => ?_
  exact hu.exists_visit? hdest (hdocs d (mem_of_mem_chunks hc hd))

/-- The documents that stay and those that are sent on must both have accepted groups. -/
theorem Over.exists_finish? (hm : m.Over g) (chunk : Nat) {f : Nat → Nat}
    (hall : m.grouping.All g.Accepts) (hf : ∀ x, f x = x ∨ g.Accepts (f x)) :
    ∃ g', m.finish? chunk f = some g' := by
  refine Grouping.exists_mapGroups? fun d x hx => ⟨_, rfl, ?_⟩
  have hx := hall d x hx
  refine Grouping.Accepts.of_frame ?_ hm.frame_eq
  split_ifs
  · exact hx
  · rcases hf x with h | h
    · rwa [h]
    · exact h

/-! ### Chunks -/

/-- The chunk size of a visit does not matter. -/
theorem visitAll?_eq (hchunk : 0 < chunk) (m : Marking) (destination : Nat → Option Nat)
    (docs : List Nat) :
    m.visitAll? chunk destination docs = docs.foldlM (visit? destination) m :=
  drain_foldlM hchunk (visit? destination) docs m

end Cohort.Marking
