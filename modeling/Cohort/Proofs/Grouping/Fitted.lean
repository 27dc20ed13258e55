import Cohort.Proofs.Grouping.Docwise
import Cohort.Proofs.Meaning

/-!
# Fitted groupings — words that hold every group

A grouping may be written beyond its capacity, as far as its words go. `Fitted`: the words are the
narrowest for the capacity, and every group is one that they hold. Writes, recounts and more room
keep it, and `Enlarged` is what more room leaves: wider words hold every group as well, so copying
cuts off none. `Copyable` groupings are those that can be copied: the numbers of their documents are
not cut, and that of their groups is an id.
-/

namespace Cohort

namespace Width

/-- No narrower width holds the capacity. -/
theorem bytes_fitting_le {c : Nat} {v : Width} (h : c ≤ v.maxGroup) :
    (fitting c).bytes ≤ v.bytes := by
  cases v with
  | byte => exact Nat.le_of_eq (congrArg bytes (fitting_eq_byte.mpr h))
  | short =>
    unfold fitting
    rw [if_pos (show c ≤ short.maxGroup from h)]
    split_ifs <;> decide
  | long =>
    cases fitting c <;> decide

theorem maxGroup_fitting_mono {c c' : Nat} (h : c ≤ c') :
    (fitting c).maxGroup ≤ (fitting c').maxGroup := by
  unfold fitting
  split_ifs <;> first | omega | decide

theorem bytes_fitting_mono {c c' : Nat} (h : c ≤ c') :
    (fitting c).bytes ≤ (fitting c').bytes := by
  unfold fitting
  split_ifs <;> first | omega | decide

end Width

namespace Grouping

variable {g g' : Grouping} {d m x numDocs : Nat}

/-! ### Words that hold every group -/

/-- Largest group that a document can be in. -/
def limit : Grouping → Nat
  | constant .. => maxId
  | stored s => s.width.maxGroup

/-- The words are the narrowest for the capacity, and every group is one that they hold. -/
structure Fitted (g : Grouping) : Prop where
  width_eq : ∀ s, g = stored s → s.width = .fitting s.capacity
  le_limit : g.All (· ≤ g.limit)

theorem limit_of_frame (hf : g'.frame = g.frame) : g'.limit = g.limit := by
  cases g <;> cases g' <;> first | rfl | cases hf | skip
  simp only [frame, stored.injEq, StoredGroups.mk.injEq] at hf
  exact congrArg Width.maxGroup hf.1

theorem fitted_constant {n : Nat} (hx : x ≤ maxId) : (constant x n).Fitted := by
  refine ⟨nofun, fun d y hy => ?_⟩
  rw [eq_of_get?_constant hy]
  exact hx

theorem fitted_blank (m n : Nat) : (stored (.blank m n)).Fitted := by
  refine ⟨fun s hs => by cases hs; rfl, fun d y hy => ?_⟩
  obtain ⟨-, rfl⟩ := List.mem_replicate.mp (List.mem_of_getElem? (i := d) (by
    rwa [← Array.toList_replicate, Array.getElem?_toList]))
  exact Nat.zero_le _

/-- The groupings of sessions stay within their capacity. -/
theorem Counted.fitted (hg : g.Counted numDocs) : g.Fitted := by
  refine ⟨hg.width_eq, fun d x hx => ?_⟩
  have hmax := Nat.le_of_lt (hg.lt_maxId d x hx)
  cases g with
  | constant => exact hmax
  | stored s =>
    show x ≤ s.width.maxGroup
    rw [hg.width_eq s rfl]
    exact Width.le_maxGroup_fitting (hg.le_capacity d x hx) hmax

/-! ### Writes -/

theorem Fitted.overwrites (hg : g.Fitted) (ho : Overwrites (· ≤ g.limit) g g') : g'.Fitted := by
  refine ⟨?_, fun d x hx => limit_of_frame ho.frame_eq ▸ ho.all hg.le_limit d x hx⟩
  rintro s' rfl
  obtain ⟨s, rfl, hw, hc⟩ := stored_of_frame ho.frame_eq
  rw [hw, hc]
  exact hg.width_eq s rfl

/-- What can be written is a group that the words hold, or the one that all documents are in. -/
theorem overwrites_set? (hs : g.set? d x = some g') : Overwrites (· ≤ g.limit) g g' := by
  cases g with
  | constant y n =>
    simp only [set?] at hs
    split_ifs at hs
    cases hs
    exact .refl _
  | stored s =>
    obtain ⟨t, ht, hle⟩ := accepts_of_set? hs
    cases ht
    exact .of_set? hle hs

/-- One write after another. -/
theorem Overwrites.step (h : Overwrites (· ≤ g.limit) g g') {t : Grouping}
    (ht : Overwrites (· ≤ g'.limit) g' t) : Overwrites (· ≤ g.limit) g t :=
  h.trans (limit_of_frame h.frame_eq ▸ ht)

theorem overwrites_setAll? {docs groups : List Nat} (hs : g.setAll? docs groups = some g') :
    Overwrites (· ≤ g.limit) g g' := by
  induction docs generalizing g groups with
  | nil =>
    cases g with
    | constant y n =>
      simp only [setAll?] at hs
      split_ifs at hs
      cases hs
      exact .refl _
    | stored s =>
      cases hs
      exact .refl _
  | cons d docs ih =>
    cases groups with
    | nil =>
      cases g <;> cases hs <;> exact .refl _
    | cons x groups =>
      rw [setAll?_cons] at hs
      obtain ⟨t, ht, hs⟩ := Option.bind_eq_some_iff.mp hs
      exact (overwrites_set? ht).step (ih hs)

theorem overwrites_setSlice? {start : Nat} {groups : List Nat}
    (hs : g.setSlice? start groups = some g') : Overwrites (· ≤ g.limit) g g' := by
  cases g with
  | constant y n =>
    have hall : (constant y n).setAll? (List.range' start groups.length) groups = some g' := hs
    exact overwrites_setAll? hall
  | stored s =>
    simp only [setSlice?] at hs
    split_ifs at hs
    exact overwrites_setAll? hs

theorem overwrites_splitBy? {docs : DocSet} {split : Split}
    (hs : g.splitBy? docs split = some g') : Overwrites (· ≤ g.limit) g g' := by
  refine foldlM_keeps (Overwrites (· ≤ g.limit) g) (.refl g) (fun d _ t t' ht hd => ?_) hs
  obtain ⟨y, -, hd⟩ := Option.bind_eq_some_iff.mp hd
  split_ifs at hd
  · exact ht.step (overwrites_set? hd)
  · exact ht.step (overwrites_set? hd)
  · cases hd
    exact ht

theorem Fitted.recount? (hg : g.Fitted) (hr : g.recount? = some g') : g'.Fitted := by
  cases g with
  | constant x n =>
    simp only [Grouping.recount?] at hr
    split_ifs at hr
    cases hr
    exact hg
  | stored s =>
    simp only [Grouping.recount?] at hr
    split_ifs at hr
    cases hr
    exact ⟨fun t ht => by cases ht; exact hg.width_eq s rfl, hg.le_limit⟩

/-! ### Room -/

/-- Room that was made is words of its own. -/
theorem exists_stored_roomFor (g : Grouping) (m : Nat) : ∃ s, g.roomFor m = stored s := by
  cases hr : g.roomFor m with
  | stored s => exact ⟨s, rfl⟩
  | constant =>
    have hconst := isConstant_roomFor g m
    rw [hr] at hconst
    cases hconst

/-- Words for a capacity that is no smaller hold every group as well. -/
theorem Fitted.le_fitting (hg : g.Fitted) (hd : g.get? d = some x) {c : Nat} (hc : g.capacity ≤ c) :
    x ≤ (Width.fitting c).maxGroup := by
  have hx := hg.le_limit d x hd
  cases g with
  | constant y n =>
    rw [eq_of_get?_constant hd] at hx ⊢
    exact Width.le_maxGroup_fitting hc hx
  | stored t =>
    refine Nat.le_trans hx ?_
    show t.width.maxGroup ≤ _
    rw [hg.width_eq t rfl]
    exact Width.maxGroup_fitting_mono hc

/-- Words are never made narrower. -/
theorem Fitted.limit_le_roomFor (hg : g.Fitted) (hd : g.get? d = some x) {s : StoredGroups}
    (hs : g.roomFor m = stored s) : x ≤ s.width.maxGroup := by
  have hcap := capacity_roomFor g m
  rw [hs] at hcap
  rw [width_roomFor hg.width_eq m s hs, show s.capacity = max g.capacity m from hcap]
  exact hg.le_fitting hd (Nat.le_max_left _ _)

theorem Fitted.roomFor (hg : g.Fitted) (m : Nat) : (g.roomFor m).Fitted := by
  refine ⟨width_roomFor hg.width_eq m, fun d x hx => ?_⟩
  rw [get?_roomFor] at hx
  obtain ⟨s, hs⟩ := exists_stored_roomFor g m
  rw [hs]
  exact hg.limit_le_roomFor hx hs

theorem frame_frame (g : Grouping) : g.frame.frame = g.frame := by
  cases g <;> simp [frame]

/-- Groupings with the same frame and the same groups are the same. -/
theorem eq_of_frame (hf : g'.frame = g.frame) (hget : ∀ d, g'.get? d = g.get? d) : g' = g := by
  cases g with
  | constant x n =>
    cases g' with
    | constant => exact hf
    | stored => cases hf
  | stored s =>
    cases g' with
    | constant => cases hf
    | stored s' =>
      simp only [frame, stored.injEq, StoredGroups.mk.injEq] at hf
      have hgroups : s'.groups = s.groups := Array.ext_getElem? hget
      rw [stored.injEq, StoredGroups.mk.injEq]
      exact ⟨hf.1, hf.2.1, hf.2.2.1, hgroups⟩

theorem lt_frame_len : ∀ d ∈ List.range g.len, d < g.frame.len := by
  intro d hd
  rw [frame_len]
  exact List.mem_range.mp hd

/-- Writing all groups of `g` moves one document after the other to its group in `g`, whatever it
is in before. -/
theorem setAll?_frame_eq (g : Grouping) : g.frame.setAll? (List.range g.len) g.toList =
    (List.range g.len).foldlM (move? fun d _ => g.get? d) g.frame := by
  have hread : (List.range g.len).mapM (fun d =>
      (g.frame.get? d).bind fun _ => g.get? d) = some g.toList := by
    refine Meaning.mapM_eq_toList List.length_range fun d a ha => ?_
    obtain ⟨hd, rfl⟩ := List.getElem?_eq_some_iff.mp ha
    rw [List.length_range] at hd
    rw [List.getElem_range]
    obtain ⟨x, hx⟩ := get?_of_lt_len (lt_frame_len d (List.mem_range.mpr hd))
    rw [hx, Option.bind_some]
  have hmove := mapM_setAll? (g := g.frame) (f := fun d _ => g.get? d)
    (List.nodup_range (n := g.len))
  rwa [hread, Option.bind_some] at hmove

/-- Blank words that took all groups of `g` are `g`. -/
theorem eq_of_setAll?_frame (h : g.frame.setAll? (List.range g.len) g.toList = some g') :
    g' = g := by
  rw [setAll?_frame_eq] at h
  have hm := moves_of_moves? List.nodup_range lt_frame_len h
  have hframe : g'.frame = g.frame := hm.frame_eq.trans (frame_frame g)
  refine eq_of_frame hframe fun d => ?_
  by_cases hd : d < g.len
  · have hd := List.mem_range.mpr hd
    obtain ⟨x, hx⟩ := get?_of_lt_len (lt_frame_len d hd)
    rw [hm.moved d hd, hx, Option.bind_some]
  · have hd := Nat.le_of_not_lt hd
    rw [get?_eq_none hd, get?_eq_none (by rwa [len_eq_of_frame hframe])]

/-- Blank words take the groups one by one if they hold every one of them. -/
theorem setAll?_frame {s : StoredGroups} (hs : (stored s).All (· ≤ s.width.maxGroup)) :
    (stored s).frame.setAll? (List.range (stored s).len) (stored s).toList = some (stored s) := by
  obtain ⟨g', hg'⟩ : ∃ g', (stored s).frame.setAll? (List.range (stored s).len)
      (stored s).toList = some g' := by
    rw [setAll?_frame_eq]
    refine exists_moves List.nodup_range lt_frame_len fun d hd x _ => ?_
    obtain ⟨y, hy⟩ := get?_of_lt_len (List.mem_range.mp hd)
    exact ⟨y, hy, _, rfl, hs d y hy⟩
  rw [hg', eq_of_setAll?_frame hg']

/-! ### Copying into wider words -/

theorem count?_eq_some {n : Nat} (h : g.count? = some n) : n = g.numGroups := by
  cases g with
  | constant x len => exact (asId?_eq_some.mp h).2.symm
  | stored s => exact (Option.some_inj.mp h).symm

theorem count?_eq (h : g.numGroups ≤ maxId) : g.count? = some g.numGroups := by
  cases g with
  | constant x len => exact asId?_eq_some.mpr ⟨h, rfl⟩
  | stored s => rfl

/-- With documents that have ids, all of them are copied that are not in group 0 anyway. -/
theorem copied_eq (hlen : g.len ≤ maxId) :
    g.copied = List.range g.len ∨ g.copied = [] ∧ ∃ n, g = constant 0 n := by
  cases g with
  | constant x n =>
    by_cases hx : x = 0
    · exact .inr ⟨if_pos hx, n, hx ▸ rfl⟩
    · exact .inl ((if_neg hx).trans (congrArg List.range (mod_halfWordBound hlen)))
  | stored s =>
    refine .inl (Eq.trans (List.map_congr_left fun d hd => mod_halfWordBound ?_) (List.map_id _))
    exact Nat.le_trans (Nat.le_of_lt (List.mem_range.mp hd)) hlen

/-- Blank words that took over the groups of `g`. -/
def copy (g : Grouping) (c : Nat) : Grouping := stored ⟨.fitting c, c, 1, g.toList.toArray⟩

theorem len_copy (g : Grouping) (c : Nat) : (g.copy c).len = g.len := by
  show g.toList.toArray.size = g.len
  rw [List.size_toArray, length_toList]

theorem get?_copy (g : Grouping) (c d : Nat) : (g.copy c).get? d = g.get? d := by
  show g.toList.toArray[d]? = g.get? d
  rw [List.getElem?_toArray, getElem?_toList]

theorem frame_copy (g : Grouping) (c : Nat) : (g.copy c).frame = stored (.blank c g.len) := by
  show stored { StoredGroups.mk _ _ _ _ with groups := .replicate g.toList.toArray.size 0 } = _
  rw [List.size_toArray, length_toList]
  rfl

theorem copy_of_zero {n : Nat} (c : Nat) : (constant 0 n).copy c = stored (.blank c n) := by
  unfold copy StoredGroups.blank
  rw [show (constant 0 n).toList = List.replicate n 0 from rfl, List.toArray_replicate]

/-- The copy is written document by document. -/
theorem setAll?_copied_eq {c : Nat} (hlen : g.len ≤ maxId) :
    (stored (.blank c g.len)).setAll? g.copied g.toList =
      (g.copy c).frame.setAll? (List.range (g.copy c).len) (g.copy c).toList ∨
    (stored (.blank c g.len)).setAll? g.copied g.toList = some (g.copy c) := by
  rcases copied_eq hlen with hall | ⟨hnone, n, rfl⟩
  · have hlist : (g.copy c).toList = g.toList :=
      toList_ext (len_copy g c) fun d _ => get?_copy g c d
    exact .inl (by rw [hall, frame_copy, len_copy, hlist])
  · exact .inr (by rw [hnone, copy_of_zero]; rfl)

/-- A copy that went through left no document behind. -/
theorem eq_copy_of_setAll? {c : Nat} (hlen : g.len ≤ maxId)
    (h : (stored (.blank c g.len)).setAll? g.copied g.toList = some g') : g' = g.copy c := by
  rcases setAll?_copied_eq hlen with heq | heq <;> rw [heq] at h
  · exact eq_of_setAll?_frame h
  · exact (Option.some_inj.mp h).symm

/-- Words that hold every group take all of them. -/
theorem setAll?_copied {c : Nat} (hlen : g.len ≤ maxId)
    (hall : g.All (· ≤ (Width.fitting c).maxGroup)) :
    (stored (.blank c g.len)).setAll? g.copied g.toList = some (g.copy c) := by
  rcases setAll?_copied_eq hlen with heq | heq <;> rw [heq]
  refine setAll?_frame fun d x hx => hall d x ?_
  rwa [← copy, get?_copy] at hx

theorem eq_widened_of_widen? (hlen : g.len ≤ maxId) (h : g.widen? m = some g') :
    g' = stored (g.widened m) := by
  obtain ⟨t, ht, h⟩ := Option.bind_eq_some_iff.mp h
  obtain ⟨n, hn, h⟩ := Option.bind_eq_some_iff.mp h
  obtain rfl := eq_copy_of_setAll? hlen ht
  obtain rfl := count?_eq_some hn
  exact (Option.some_inj.mp h).symm

/-- A fitted grouping of documents that have ids, with a number of groups that can be told. -/
structure Copyable (g : Grouping) : Prop extends Fitted g where
  len_le : g.len ≤ maxId
  count?_eq : g.count? = some g.numGroups

theorem copyable_constant {n : Nat} (hx : x < maxId) (hn : n ≤ maxId) : (constant x n).Copyable :=
  ⟨fitted_constant (Nat.le_of_lt hx), hn, asId?_of_le hx⟩

theorem copyable_blank {n : Nat} (m : Nat) (hn : n ≤ maxId) : (stored (.blank m n)).Copyable :=
  ⟨fitted_blank m n, Nat.le_trans (Nat.le_of_eq Array.size_replicate) hn, rfl⟩

theorem Counted.copyable (hg : g.Counted numDocs) : g.Copyable :=
  ⟨hg.fitted, hg.len_le, count?_eq hg.numGroups_le⟩

theorem Copyable.overwrites (hg : g.Copyable) (ho : Overwrites (· ≤ g.limit) g g') :
    g'.Copyable := by
  refine ⟨hg.toFitted.overwrites ho, len_eq_of_frame ho.frame_eq ▸ hg.len_le, ?_⟩
  cases g' with
  | stored s => rfl
  | constant =>
    cases g with
    | stored => cases ho.frame_eq
    | constant =>
      cases ho.frame_eq
      exact hg.count?_eq

theorem Copyable.recount? (hg : g.Copyable) (hr : g.recount? = some g') : g'.Copyable := by
  refine ⟨hg.toFitted.recount? hr, len_recount? hr ▸ hg.len_le, ?_⟩
  cases g with
  | constant x n =>
    simp only [Grouping.recount?] at hr
    split_ifs at hr
    cases hr
    exact hg.count?_eq
  | stored s =>
    simp only [Grouping.recount?] at hr
    split_ifs at hr
    cases hr
    rfl

theorem Copyable.roomFor (hg : g.Copyable) (m : Nat) : (g.roomFor m).Copyable := by
  refine ⟨hg.toFitted.roomFor m, (len_roomFor g m).symm ▸ hg.len_le, ?_⟩
  obtain ⟨s, hs⟩ := exists_stored_roomFor g m
  rw [hs]
  rfl

/-- They are copied into wider words as they are. -/
theorem Copyable.widen?_eq (hg : g.Copyable) : g.widen? m = some (stored (g.widened m)) := by
  unfold widen?
  rw [setAll?_copied hg.len_le fun d x hx => hg.le_fitting hx (Nat.le_max_right _ _), hg.count?_eq]
  rfl

/-- Where no document is copied, all of them are in group 0 afterwards. -/
theorem widen?_of_copied_nil {n : Nat} (hnone : g.copied = []) (hcount : g.count? = some n) :
    g.widen? m =
      some (stored { StoredGroups.blank (max m g.capacity) g.len with numGroups := n }) := by
  unfold widen?
  rw [hnone, hcount]
  rfl

/-- The bytes of words for documents that have ids can be told. -/
theorem word?_bytesFor {width : Width} {numDocs : Nat} (hn : numDocs ≤ maxId) :
    word? (StoredGroups.bytesFor width numDocs) = some (StoredGroups.bytesFor width numDocs) := by
  refine word?_eq_some.mpr ⟨?_, rfl⟩
  have hwidth : width.bytes ≤ 4 := by cases width <;> decide
  have hbytes : numDocs * width.bytes ≤ maxId * 4 := Nat.mul_le_mul hn hwidth
  exact Nat.lt_of_le_of_lt hbytes (by decide)

/-- `s` holds the groups of `g` and has room for group `m` as well, in the narrowest words. -/
structure Enlarged (g : Grouping) (m : Nat) (s : StoredGroups) : Prop where
  len_eq : (stored s).len = g.len
  get?_eq : ∀ d, (stored s).get? d = g.get? d
  numGroups_eq : (stored s).numGroups = g.numGroups
  capacity_eq : (stored s).capacity = max g.capacity m
  /-- Every group id up to the capacity can be written. -/
  room : ∀ x ≤ s.capacity, x ≤ maxId → x ≤ s.width.maxGroup
  narrowest : ∀ v : Width, s.capacity ≤ v.maxGroup → s.width.bytes ≤ v.bytes
  never_narrower : ∀ t, g = stored t → t.width.bytes ≤ s.width.bytes
  /-- No group is cut off: blank words of this width take the groups of all documents. -/
  written : (stored s).frame.setAll? (List.range g.len) g.toList = some (stored s)

theorem Fitted.enlarged {s : StoredGroups} (hg : g.Fitted) (hs : g.roomFor m = stored s) :
    g.Enlarged m s := by
  have hlen := len_roomFor g m
  have hget := get?_roomFor g m
  have hnum := numGroups_roomFor g m
  have hcap := capacity_roomFor g m
  have hfit := hg.roomFor m
  rw [hs] at hlen hget hnum hcap hfit
  have hwidth : s.width = .fitting s.capacity := hfit.width_eq s rfl
  refine ⟨hlen, hget, hnum, hcap, fun x hx hmax => ?_, fun v hv => ?_, fun t ht => ?_, ?_⟩
  · rw [hwidth]
    exact Width.le_maxGroup_fitting hx hmax
  · rw [hwidth]
    exact Width.bytes_fitting_le hv
  · rw [hwidth, hg.width_eq t ht]
    refine Width.bytes_fitting_mono ?_
    rw [show s.capacity = max g.capacity m from hcap, ht]
    exact Nat.le_max_left _ _
  · have hlist : (stored s).toList = g.toList := toList_ext hlen fun d _ => hget d
    rw [← hlen, ← hlist]
    exact setAll?_frame hfit.le_limit

end Grouping

end Cohort
