import Mathlib.Tactic.SplitIfs
import Mathlib.Data.List.Nodup
import Cohort.Grouping.Basic
import Cohort.Proofs.Loops

/-!
# Moves — a grouping read document by document, and what writes do to it

`get?` is the view of a grouping that everything here is said in; `frame` is what writes leave
alone. `Moves f docs g g'`: the documents `docs` moved from group `x` to `f doc x`, all others
stayed. `Follows f g g'`: all documents are where `f` sends them, however they got there.
`Overwrites P g g'`: some documents moved to groups with `P`. `Spares g g'`: those of group 0 stayed
there. A loop whose steps move documents that no other step touches moves them all at once.
-/

namespace Cohort.Grouping

variable {g g' h : Grouping} {d x : Nat}

/-! ### The view -/

@[simp]
theorem length_toList (g : Grouping) : g.toList.length = g.len := by
  cases g <;> simp [toList, len]

theorem getElem?_toList (g : Grouping) (d : Nat) : g.toList[d]? = g.get? d := by
  cases g with
  | constant x n => simp [toList, get?, List.getElem?_replicate]
  | stored s => simp [toList, get?]

theorem lt_len_of_get? (hx : g.get? d = some x) : d < g.len := by
  rw [← getElem?_toList] at hx
  obtain ⟨hd, -⟩ := List.getElem?_eq_some_iff.mp hx
  rwa [length_toList] at hd

theorem get?_of_lt_len (hd : d < g.len) : ∃ x, g.get? d = some x := by
  rw [← length_toList] at hd
  exact ⟨g.toList[d], by rw [← getElem?_toList, List.getElem?_eq_getElem hd]⟩

/-- The group of a document, for documents that exist. -/
def groupOf (g : Grouping) (d : Nat) : Nat := (g.get? d).getD 0

theorem get?_eq_groupOf (hd : d < g.len) : g.get? d = some (g.groupOf d) := by
  obtain ⟨x, hx⟩ := get?_of_lt_len hd
  unfold groupOf
  rw [hx]
  rfl

theorem get?_eq_none (hd : g.len ≤ d) : g.get? d = none := by
  rw [← getElem?_toList, List.getElem?_eq_none (by rwa [length_toList])]

theorem eq_of_get?_constant {y n : Nat} (h : (constant y n).get? d = some x) : x = y := by
  obtain ⟨-, h⟩ := Option.ite_none_right_eq_some.mp h
  exact (Option.some.inj h).symm

theorem mem_toList : x ∈ g.toList ↔ ∃ d, g.get? d = some x := by
  simp only [List.mem_iff_getElem?, getElem?_toList]

/-- Groupings that show the same group for every document are lists of the same groups. -/
theorem toList_ext (hlen : g'.len = g.len) (hget : ∀ d < g.len, g'.get? d = g.get? d) :
    g'.toList = g.toList := by
  refine List.ext_getElem? fun d => ?_
  rw [getElem?_toList, getElem?_toList]
  by_cases hd : d < g.len
  · exact hget d hd
  · rw [get?_eq_none (Nat.le_of_not_lt hd), get?_eq_none (by omega)]

/-! ### The frame -/

/-- What writes leave alone: all but the stored groups themselves. -/
def frame : Grouping → Grouping
  | constant group len => constant group len
  | stored s => stored { s with groups := .replicate s.groups.size 0 }

@[simp]
theorem frame_len (g : Grouping) : g.frame.len = g.len := by
  cases g <;> simp [frame, len]

@[simp]
theorem frame_capacity (g : Grouping) : g.frame.capacity = g.capacity := by
  cases g <;> rfl

@[simp]
theorem frame_bytes (g : Grouping) : g.frame.bytes = g.bytes := by
  cases g <;> simp [frame, bytes, StoredGroups.bytes]

theorem len_eq_of_frame (hf : g'.frame = g.frame) : g'.len = g.len := by
  rw [← frame_len, hf, frame_len]

theorem capacity_eq_of_frame (hf : g'.frame = g.frame) : g'.capacity = g.capacity := by
  rw [← frame_capacity, hf, frame_capacity]

theorem bytes_eq_of_frame (hf : g'.frame = g.frame) : g'.bytes = g.bytes := by
  rw [← frame_bytes, hf, frame_bytes]

/-- Storage stays storage, of the same width. -/
theorem stored_of_frame {s' : StoredGroups} (hf : (stored s').frame = g.frame) :
    ∃ s, g = stored s ∧ s'.width = s.width ∧ s'.capacity = s.capacity := by
  cases g with
  | constant => cases hf
  | stored s =>
    simp only [frame, stored.injEq, StoredGroups.mk.injEq] at hf
    exact ⟨s, rfl, hf.1, hf.2.1⟩

/-! ### Single writes -/

theorem frame_set? (hs : g.set? d x = some g') : g'.frame = g.frame := by
  cases g with
  | constant y n =>
    simp only [set?] at hs
    split_ifs at hs
    cases hs
    rfl
  | stored s =>
    obtain ⟨s', hs', rfl⟩ := Option.map_eq_some_iff.mp hs
    unfold StoredGroups.set? at hs'
    split_ifs at hs'
    cases hs'
    simp [frame]

theorem get?_set? (hs : g.set? d x = some g') (e : Nat) :
    g'.get? e = if e = d then (g.get? e).map fun _ => x else g.get? e := by
  cases g with
  | constant y n =>
    simp only [set?] at hs
    split_ifs at hs with hxy
    cases hs
    subst hxy
    by_cases he : e < n <;> simp [get?, he]
  | stored s =>
    obtain ⟨s', hs', rfl⟩ := Option.map_eq_some_iff.mp hs
    unfold StoredGroups.set? at hs'
    split_ifs at hs' with hd
    cases hs'
    simp only [Bool.and_eq_true, decide_eq_true_eq] at hd
    show (s.groups.setIfInBounds d x)[e]? = _
    by_cases he : e = d
    · subst he
      rw [if_pos rfl, Array.getElem?_setIfInBounds_self_of_lt hd.1]
      show _ = (s.groups[e]?).map _
      rw [Array.getElem?_eq_getElem hd.1]
      rfl
    · rw [if_neg he, Array.getElem?_setIfInBounds_ne (Ne.symm he)]
      rfl

/-! ### Reads of several documents -/

theorem groupsOf?_eq_mapM {docs : List Nat} (hd : ∀ d ∈ docs, d < g.len) :
    g.groupsOf? docs = docs.mapM g.get? := by
  cases g with
  | stored s => rfl
  | constant x n =>
    refine (mapM_eq_some_iff.mpr ?_).symm
    rw [List.map_replicate, ← List.map_const']
    refine List.map_congr_left fun d hmem => ?_
    show (if d < n then some x else none) = some x
    exact if_pos (hd d hmem)

/-! ### Moves -/

/-- `g'` is `g` with all of `docs` moved: `f` gives the new group of a document by its old one. -/
structure Moves (f : Nat → Nat → Option Nat) (docs : List Nat) (g g' : Grouping) : Prop where
  frame_eq : g'.frame = g.frame
  moved : ∀ d ∈ docs, g'.get? d = (g.get? d).bind (f d)
  kept : ∀ d, d ∉ docs → g'.get? d = g.get? d

variable {f : Nat → Nat → Option Nat} {docs : List Nat}

theorem Moves.append {docs' : List Nat} (h1 : Moves f docs g h) (h2 : Moves f docs' h g')
    (hdisj : ∀ d ∈ docs, d ∉ docs') : Moves f (docs ++ docs') g g' := by
  refine ⟨h2.frame_eq.trans h1.frame_eq, ?_, ?_⟩
  · intro d hd
    by_cases hd' : d ∈ docs'
    · have hnot : d ∉ docs := fun hmem => hdisj d hmem hd'
      rw [h2.moved d hd', h1.kept d hnot]
    · rw [h2.kept d hd', h1.moved d ((List.mem_append.mp hd).resolve_right hd')]
  · intro d hd
    rw [List.mem_append, not_or] at hd
    rw [h2.kept d hd.2, h1.kept d hd.1]

/-- Moved one and all, a grouping is a function of the old one. -/
theorem Moves.get? (hm : Moves f (List.range g.len) g g') (d : Nat) :
    g'.get? d = (g.get? d).bind (f d) := by
  by_cases hd : d < g.len
  · exact hm.moved d (List.mem_range.mpr hd)
  · rw [hm.kept d (by simpa using hd), get?_eq_none (Nat.le_of_not_lt hd)]
    rfl

/-- A loop each of whose steps moves documents of its own moves them all. -/
theorem Moves.of_foldlM {ι : Type} {docsOf : ι → List Nat} {step : Grouping → ι → Option Grouping}
    {parts : List ι} (hdocs : (parts.flatMap docsOf).Nodup)
    (hlt : ∀ d ∈ parts.flatMap docsOf, d < g.len)
    (hstep : ∀ i t t', (docsOf i).Nodup → (∀ d ∈ docsOf i, d < g.len) → t.len = g.len →
      step t i = some t' → Moves f (docsOf i) t t')
    (hs : parts.foldlM step g = some g') : Moves f (parts.flatMap docsOf) g g' := by
  refine foldlM_induct (fun done t => Moves f (done.flatMap docsOf) g t)
    ⟨rfl, by simp, by simp⟩ ?_ hs
  intro done i rest t t' hparts ht hi
  rw [hparts, List.flatMap_append, List.flatMap_cons] at hdocs hlt
  obtain ⟨-, htail, hdisj⟩ := List.nodup_append.mp hdocs
  rw [List.flatMap_append, List.flatMap_singleton]
  refine ht.append (hstep i t t' (List.nodup_append.mp htail).1 ?_
    (len_eq_of_frame ht.frame_eq) hi) ?_
  · intro d hd
    exact hlt d (by simp [hd])
  · intro d hd hdi
    exact hdisj d hd d (by simp [hdi]) rfl

/-- The loop over all documents, a chunk at a time. -/
theorem Moves.of_chunks {step : Grouping → List Nat → Option Grouping} {n : Nat} (hn : 0 < n)
    (hstep : ∀ c t t', c.Nodup → (∀ d ∈ c, d < g.len) → t.len = g.len →
      step t c = some t' → Moves f c t t')
    (hs : (chunks n (List.range g.len)).foldlM step g = some g') :
    Moves f (List.range g.len) g g' := by
  have hall : (chunks n (List.range g.len)).flatMap id = List.range g.len := by
    rw [List.flatMap_id, flatten_chunks hn]
  rw [← hall]
  refine Moves.of_foldlM ?_ ?_ hstep hs
  · rw [hall]
    exact List.nodup_range
  · rw [hall]
    exact fun d hd => List.mem_range.mp hd

theorem moves_of_splitBy? {docs : DocSet} {split : Split} (hlen : g.len ≤ maxId)
    (hs : g.splitBy? docs split = some g') :
    Moves (fun d x => some (if x = split.target then
      if docs.contains d then split.positive else split.negative else x))
      (List.range g.len) g g' := by
  unfold splitBy? at hs
  rw [mod_halfWordBound hlen] at hs
  have hall : (List.range g.len).flatMap (fun d => [d]) = List.range g.len := by simp
  rw [← hall]
  refine Moves.of_foldlM (by rw [hall]; exact List.nodup_range)
    (fun d hd => List.mem_range.mp (hall ▸ hd)) ?_ hs
  intro d t t' _ _ _ hstep
  obtain ⟨x, hx, hstep⟩ := Option.bind_eq_some_iff.mp hstep
  by_cases hxt : x = split.target
  · rw [if_pos hxt] at hstep
    refine ⟨frame_set? hstep, ?_, ?_⟩
    · intro e he
      rw [List.mem_singleton.mp he, get?_set? hstep, if_pos rfl, hx]
      simp [hxt]
    · intro e he
      rw [get?_set? hstep, if_neg (by simpa using he)]
  · rw [if_neg hxt] at hstep
    cases hstep
    refine ⟨rfl, ?_, fun _ _ => rfl⟩
    intro e he
    rw [List.mem_singleton.mp he, hx]
    simp [hxt]

/-- A document that was moved has a new group, so there is one that it could go to. -/
theorem Moves.exists_moved (hm : Moves f (List.range g.len) g g') (hx : g.get? d = some x) :
    ∃ y, f d x = some y ∧ g'.get? d = some y := by
  have hlt : d < g'.len := by
    rw [len_eq_of_frame hm.frame_eq]
    exact lt_len_of_get? hx
  obtain ⟨y, hy⟩ := get?_of_lt_len hlt
  have hmoved := hm.get? d
  rw [hy, hx, Option.bind_some] at hmoved
  exact ⟨y, hmoved.symm, hy⟩

/-! ### Following -/

/-- Every document is in the group that `f` gives by its old one, where `f` gives one. -/
def Follows (f : Nat → Nat → Option Nat) (g g' : Grouping) : Prop :=
  ∀ d x y, g.get? d = some x → f d x = some y → g'.get? d = some y

theorem Follows.mono {f' : Nat → Nat → Option Nat} (h : Follows f g g')
    (hf : ∀ d x y, f' d x = some y → f d x = some y) : Follows f' g g' :=
  fun d x y hx hy => h d x y hx (hf d x y hy)

theorem Moves.follows (hm : Moves f (List.range g.len) g g') : Follows f g g' := by
  intro d x y hx hy
  rw [hm.get?, hx, Option.bind_some, hy]

/-! ### Overwriting -/

/-- `g'` is `g` but for some documents that moved to groups with `P`. -/
structure Overwrites (P : Nat → Prop) (g g' : Grouping) : Prop where
  frame_eq : g'.frame = g.frame
  group : ∀ d x, g'.get? d = some x → g.get? d = some x ∨ P x

variable {P : Nat → Prop}

theorem Overwrites.refl (g : Grouping) : Overwrites P g g := ⟨rfl, fun _ _ => .inl⟩

theorem Overwrites.trans (h1 : Overwrites P g h) (h2 : Overwrites P h g') :
    Overwrites P g g' := by
  refine ⟨h2.frame_eq.trans h1.frame_eq, ?_⟩
  intro d x hx
  rcases h2.group d x hx with hx | hx
  · exact h1.group d x hx
  · exact .inr hx

theorem Overwrites.mono {Q : Nat → Prop} (h : Overwrites P g g') (hPQ : ∀ x, P x → Q x) :
    Overwrites Q g g' :=
  ⟨h.frame_eq, fun d x hx => (h.group d x hx).imp_right (hPQ x)⟩

theorem Overwrites.of_set? (hx : P x) (hs : g.set? d x = some g') : Overwrites P g g' := by
  refine ⟨frame_set? hs, ?_⟩
  intro e y hy
  rw [get?_set? hs] at hy
  split_ifs at hy with he
  · obtain ⟨z, -, rfl⟩ := Option.map_eq_some_iff.mp hy
    exact .inr hx
  · exact .inl hy

theorem Moves.overwrites (hm : Moves f (List.range g.len) g g')
    (hf : ∀ d x y, g.get? d = some x → f d x = some y → y = x ∨ P y) : Overwrites P g g' := by
  refine ⟨hm.frame_eq, ?_⟩
  intro d y hy
  rw [hm.get?] at hy
  obtain ⟨x, hx, hxy⟩ := Option.bind_eq_some_iff.mp hy
  rcases hf d x y hx hxy with rfl | hP
  · exact .inl hx
  · exact .inr hP

/-! ### Group 0 -/

/-- No document has left group 0. -/
def Spares (g g' : Grouping) : Prop := ∀ d, g.get? d = some 0 → g'.get? d = some 0

theorem Spares.refl (g : Grouping) : g.Spares g := fun _ => id

theorem Spares.trans (h1 : g.Spares h) (h2 : h.Spares g') : g.Spares g' :=
  fun d hd => h2 d (h1 d hd)

theorem spares_of_get? (h : ∀ d, g'.get? d = g.get? d) : g.Spares g' :=
  fun d hd => (h d).trans hd

theorem Moves.spares (hm : Moves f (List.range g.len) g g') (hf : ∀ d y, f d 0 = some y → y = 0) :
    g.Spares g' := by
  intro d hd
  obtain ⟨y, hy, hmoved⟩ := hm.exists_moved hd
  rw [hmoved, hf d y hy]

end Cohort.Grouping
