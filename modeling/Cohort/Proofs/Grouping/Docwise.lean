import Cohort.Proofs.Grouping.WellFormed

/-!
# Document by document — chunked moves without the chunks

`move?` moves one document. The loops over all documents that read and write a chunk at a time are
loops of `move?`, whatever the chunk size and also where they fail. Where such a loop ends, all
documents moved at once. `Accepts` says which groups a grouping can store: a loop of moves to
accepted groups goes through.
-/

namespace Cohort

theorem Width.le_maxGroup_fitting {c x : Nat} (hx : x ≤ c) (hmax : x ≤ maxId) :
    x ≤ (fitting c).maxGroup := by
  unfold fitting
  split_ifs with hb hs
  · exact Nat.le_trans hx hb
  · exact Nat.le_trans hx hs
  · exact hmax

/-- The table has a value for each of `numDocs` documents. -/
def ValueTable.Covers : ValueTable → Nat → Prop
  | dense values, numDocs => numDocs ≤ values.size
  | constant _, _ => True

instance (t : ValueTable) (numDocs : Nat) : Decidable (t.Covers numDocs) :=
  match t with
  | .dense values => inferInstanceAs (Decidable (numDocs ≤ values.size))
  | .constant _ => isTrue trivial

theorem ValueTable.Covers.exists_value? {t : ValueTable} {numDocs d : Nat} (h : t.Covers numDocs)
    (hd : d < numDocs) : ∃ v, t.value? d = some v := by
  cases t with
  | dense values => exact ⟨_, Array.getElem?_eq_getElem (Nat.lt_of_lt_of_le hd h)⟩
  | constant v => exact ⟨v, rfl⟩

/-- The value of a document, for documents that have one. -/
def ValueTable.valueOf (t : ValueTable) (d : Nat) : Int := (t.value? d).getD 0

theorem ValueTable.Covers.value?_eq_valueOf {t : ValueTable} {numDocs d : Nat}
    (h : t.Covers numDocs) (hd : d < numDocs) : t.value? d = some (t.valueOf d) := by
  obtain ⟨v, hv⟩ := h.exists_value? hd
  unfold valueOf
  rw [hv]
  rfl

namespace Grouping

variable {g g' : Grouping} {d x y m n numDocs : Nat}

/-! ### What can be stored -/

/-- The grouping stores groups of its own, and its words hold `group`. -/
def Accepts (g : Grouping) (group : Nat) : Prop := ∃ s, g = stored s ∧ group ≤ s.width.maxGroup

/-- `P` of every group that a document is in. -/
def All (P : Nat → Prop) (g : Grouping) : Prop := ∀ d x, g.get? d = some x → P x

theorem Accepts.of_frame (hx : g.Accepts x) (hf : g'.frame = g.frame) : g'.Accepts x := by
  obtain ⟨s, rfl, hle⟩ := hx
  obtain ⟨t, rfl, hw, -⟩ := stored_of_frame hf.symm
  exact ⟨t, rfl, hw ▸ hle⟩

theorem exists_set? (hd : d < g.len) (hx : g.Accepts x) : ∃ g', g.set? d x = some g' := by
  obtain ⟨s, rfl, hle⟩ := hx
  have hd : d < s.groups.size := hd
  exact ⟨stored { s with groups := s.groups.setIfInBounds d x }, by
    simp [set?, StoredGroups.set?, hd, hle]⟩

/-- A group that was written to storage is accepted. -/
theorem accepts_of_set? {s : StoredGroups} (hs : (stored s).set? d x = some g') :
    (stored s).Accepts x := by
  obtain ⟨t, ht, -⟩ := Option.map_eq_some_iff.mp hs
  unfold StoredGroups.set? at ht
  split_ifs at ht with h
  simp only [Bool.and_eq_true, decide_eq_true_eq] at h
  exact ⟨s, rfl, h.2⟩

/-- Writing back the group that a document is in changes nothing. -/
theorem set?_self (hx : g.get? d = some x) (ha : g.Accepts x) : g.set? d x = some g := by
  obtain ⟨s, rfl, hle⟩ := ha
  obtain ⟨hd, hx⟩ := Array.getElem?_eq_some_iff.mp hx
  have hself : s.groups.setIfInBounds d x = s.groups := by
    ext i hi hi'
    · exact Array.size_setIfInBounds
    · rw [Array.getElem_setIfInBounds hi']
      split_ifs with hdi
      · subst hdi
        exact hx.symm
      · rfl
  simp [set?, StoredGroups.set?, hd, hle, hself]

theorem Overwrites.all {P : Nat → Prop} (ho : Overwrites P g g') (hg : g.All P) : g'.All P := by
  intro d x hx
  rcases ho.group d x hx with hx | hx
  · exact hg d x hx
  · exact hx

/-- A grouping with room for `m` accepts the groups up to `m` and those it had room for before. -/
theorem Roomy.accepts_roomFor (hg : g.Roomy numDocs) (hx : x ≤ max g.capacity m)
    (hmax : x ≤ maxId) : (g.roomFor m).Accepts x := by
  have hwidth := (hg.roomFor m).width_eq
  have hcap := capacity_roomFor g m
  cases hr : g.roomFor m with
  | constant y n =>
    unfold Grouping.roomFor at hr
    split_ifs at hr with hf
    cases g with
    | constant => cases hf
    | stored s => cases hr
  | stored s =>
    rw [hr] at hcap
    refine ⟨s, rfl, ?_⟩
    rw [hwidth s hr]
    have hcap : s.capacity = max g.capacity m := hcap
    exact Width.le_maxGroup_fitting (by omega) hmax

theorem isConstant_roomFor (g : Grouping) (m : Nat) : (g.roomFor m).isConstant = false := by
  unfold roomFor
  split_ifs with hf
  · cases g with
    | constant => cases hf
    | stored s => rfl
  · rfl

theorem isConstant_of_frame (hf : g'.frame = g.frame) : g'.isConstant = g.isConstant := by
  cases g <;> cases g' <;> first | rfl | cases hf

/-! ### What can be counted -/

/-- A well-formed grouping whose number of groups is a group id. -/
structure Counted (g : Grouping) (numDocs : Nat) : Prop extends WellFormed g numDocs where
  numGroups_le : g.numGroups ≤ maxId

theorem Counted.lt_maxId (hg : g.Counted numDocs) : g.All (· < maxId) := by
  intro d x hx
  have := hg.lt_numGroups d x hx
  have := hg.numGroups_le
  omega

theorem Counted.roomFor_lt_maxId (hg : g.Counted numDocs) (m : Nat) :
    (g.roomFor m).All (· < maxId) := by
  intro d x hx
  rw [get?_roomFor] at hx
  exact hg.lt_maxId d x hx

/-- The groups that documents are in are accepted once there is room. -/
theorem Counted.roomFor_accepts (hg : g.Counted numDocs) (m : Nat) :
    (g.roomFor m).All (g.roomFor m).Accepts := by
  intro d x hx
  have hlt := hg.roomFor_lt_maxId m d x hx
  rw [get?_roomFor] at hx
  have := hg.le_capacity d x hx
  exact hg.accepts_roomFor (by omega) (Nat.le_of_lt hlt)

theorem numGroups_le_of_recount? (h : g.recount? = some g') : g'.numGroups ≤ maxId := by
  cases g with
  | constant x n =>
    simp only [recount?] at h
    split_ifs at h with hx
    cases h
    exact hx
  | stored s =>
    simp only [recount?] at h
    split_ifs at h with hx
    cases h
    exact hx

theorem exists_recount? (hg : g.All (· < maxId)) (hstored : g.isConstant = false) :
    ∃ g', g.recount? = some g' := by
  cases g with
  | constant => cases hstored
  | stored s =>
    have hhighest : s.groups.foldl max 0 < maxId := by
      rw [← Array.foldl_toList]
      refine foldl_max_lt (by decide) fun x hx => ?_
      obtain ⟨d, hd⟩ := List.mem_iff_getElem?.mp hx
      rw [Array.getElem?_toList] at hd
      exact hg d x hd
    simp only [recount?, if_pos hhighest]
    exact ⟨_, rfl⟩

/-! ### Moving one document -/

/-- Moves one document: `f` gives its new group by its old one. -/
def move? (f : Nat → Nat → Option Nat) (g : Grouping) (doc : Nat) : Option Grouping :=
  (g.get? doc).bind fun x => (f doc x).bind fun y => g.set? doc y

variable {f : Nat → Nat → Option Nat} {docs : List Nat}

theorem move?_eq_some (h : g.move? f d = some g') :
    ∃ x y, g.get? d = some x ∧ f d x = some y ∧ g.set? d y = some g' := by
  obtain ⟨x, hx, h⟩ := Option.bind_eq_some_iff.mp h
  obtain ⟨y, hy, h⟩ := Option.bind_eq_some_iff.mp h
  exact ⟨x, y, hx, hy, h⟩

theorem frame_move? (h : g.move? f d = some g') : g'.frame = g.frame := by
  obtain ⟨x, y, -, -, hs⟩ := move?_eq_some h
  exact frame_set? hs

theorem get?_move? {e : Nat} (h : g.move? f d = some g') (he : e ≠ d) :
    g'.get? e = g.get? e := by
  obtain ⟨x, y, -, -, hs⟩ := move?_eq_some h
  rw [get?_set? hs, if_neg he]

/-- Documents that all have an accepted group to go to can be moved one after the other. -/
theorem exists_moves (hdocs : docs.Nodup) (hlt : ∀ d ∈ docs, d < g.len)
    (hf : ∀ d ∈ docs, ∀ x, g.get? d = some x → ∃ y, f d x = some y ∧ g.Accepts y) :
    ∃ g', docs.foldlM (move? f) g = some g' := by
  have step : ∀ done d rest (t : Grouping), docs = done ++ d :: rest →
      (t.frame = g.frame ∧ ∀ d, d ∉ done → t.get? d = g.get? d) →
      ∃ t', t.move? f d = some t' ∧
        t'.frame = g.frame ∧ ∀ e, e ∉ done ++ [d] → t'.get? e = g.get? e := by
    rintro done d rest t hxs ⟨hframe, hrest⟩
    have hmem : d ∈ docs := by simp [hxs]
    -- no document is moved twice
    have hd : d ∉ done := by
      rw [hxs] at hdocs
      exact fun h => (List.nodup_append.mp hdocs).2.2 d h d List.mem_cons_self rfl
    obtain ⟨x, hx⟩ := get?_of_lt_len (hlt d hmem)
    obtain ⟨y, hy, hacc⟩ := hf d hmem x hx
    have hdt : d < t.len := len_eq_of_frame hframe ▸ hlt d hmem
    obtain ⟨t', ht'⟩ := exists_set? hdt (hacc.of_frame hframe)
    have hmove : t.move? f d = some t' := by
      unfold move?
      rw [hrest d hd, hx, Option.bind_some, hy, Option.bind_some, ht']
    refine ⟨t', hmove, (frame_set? ht').trans hframe, fun e he => ?_⟩
    rw [List.mem_append, not_or] at he
    rw [get?_move? hmove (by simpa using he.2), hrest e he.1]
  obtain ⟨g', hg', -⟩ := exists_foldlM
    (fun done (t : Grouping) => t.frame = g.frame ∧ ∀ d, d ∉ done → t.get? d = g.get? d)
    ⟨rfl, fun _ _ => rfl⟩ step
  exact ⟨g', hg'⟩

/-- Documents that were moved one after the other. -/
theorem moves_of_moves? (hdocs : docs.Nodup) (hlt : ∀ d ∈ docs, d < g.len)
    (h : docs.foldlM (move? f) g = some g') : Moves f docs g g' := by
  have hsplit : docs.flatMap (fun d => [d]) = docs := List.flatMap_singleton' docs
  have hm : Moves f (docs.flatMap fun d => [d]) g g' := by
    refine Moves.of_foldlM (hsplit.symm ▸ hdocs) (hsplit.symm ▸ hlt) ?_ h
    intro d t t' _ _ _ ht
    obtain ⟨x, y, hx, hy, hs⟩ := move?_eq_some ht
    refine ⟨frame_set? hs, fun e he => ?_, fun e he => ?_⟩
    · rw [List.mem_singleton.mp he, get?_set? hs, if_pos rfl, hx, Option.bind_some, hy]
      rfl
    · rw [get?_set? hs, if_neg (by simpa using he)]
  rwa [hsplit] at hm

theorem moves_of_range? (h : (List.range g.len).foldlM (move? f) g = some g') :
    Moves f (List.range g.len) g g' :=
  moves_of_moves? List.nodup_range (fun _ hd => List.mem_range.mp hd) h

/-! ### Moving a chunk -/

theorem setAll?_cons (g : Grouping) (d y : Nat) (docs ys : List Nat) :
    g.setAll? (d :: docs) (y :: ys) = (g.set? d y).bind fun t => t.setAll? docs ys := by
  cases g with
  | constant z n =>
    by_cases h : y = z <;> simp [setAll?, set?, h]
  | stored s =>
    show ((s.set? d y >>= fun t => _).map stored) = ((s.set? d y).map stored).bind _
    cases s.set? d y <;> rfl

/-- Reading, then writing a chunk is moving its documents one after the other. -/
theorem mapM_setAll? (hdocs : docs.Nodup) :
    ((docs.mapM fun d => (g.get? d).bind (f d)).bind (g.setAll? docs)) =
      docs.foldlM (move? f) g := by
  induction docs generalizing g with
  | nil => cases g <;> rfl
  | cons d docs ih =>
    obtain ⟨hd, hdocs⟩ := List.nodup_cons.mp hdocs
    have hmove : g.move? f d = ((g.get? d).bind (f d)).bind (g.set? d) :=
      (Option.bind_assoc _ _ _).symm
    rw [List.mapM_cons, List.foldlM_cons, hmove]
    cases (g.get? d).bind (f d) with
    | none => rfl
    | some y =>
      rw [Option.bind_some]
      cases ht : g.set? d y with
      | none => cases docs.mapM fun e => (g.get? e).bind (f e) <;> simp [setAll?_cons, ht]
      | some t =>
        -- the documents that follow may as well be read after `d` is written
        have hrest : (docs.mapM fun e => (g.get? e).bind (f e)) =
            docs.mapM fun e => (t.get? e).bind (f e) := by
          refine mapM_congr fun e he => ?_
          have hed : e ≠ d := fun h => hd (h ▸ he)
          rw [get?_set? ht, if_neg hed]
        have h := ih (g := t) hdocs
        rw [← hrest] at h
        cases hys : docs.mapM fun e => (g.get? e).bind (f e) with
        | none => simpa [hys] using h
        | some ys => simpa [setAll?_cons, ht, hys] using h

/-- Groups that were worked out from the old ones and then written. -/
theorem Moves.of_setAll? {groups : List Nat} (hdocs : docs.Nodup)
    (hf : docs.mapM (fun d => (g.get? d).bind (f d)) = some groups)
    (hs : g.setAll? docs groups = some g') : Moves f docs g g' := by
  have hlt : ∀ d ∈ docs, d < g.len := by
    intro d hd
    obtain ⟨y, -, hy⟩ := exists_of_mapM hf hd
    obtain ⟨x, hx, -⟩ := Option.bind_eq_some_iff.mp hy
    exact lt_len_of_get? hx
  refine moves_of_moves? hdocs hlt ?_
  rw [← mapM_setAll? hdocs, hf]
  exact hs

/-! ### Moving all documents -/

/-- A loop over all documents whose steps move a chunk is the loop that moves one document at a
time. The steps may rely on `I`, which single moves keep. -/
theorem foldlM_chunks_move? (I : Grouping → Prop) (hI : I g) (hn : 0 < n)
    {step : Grouping → List Nat → Option Grouping}
    (keep : ∀ d t t', I t → t.move? f d = some t' → I t')
    (hstep : ∀ c t, c.Nodup → (∀ d ∈ c, d < g.len) → t.len = g.len → I t →
      step t c = c.foldlM (move? f) t) :
    (chunks n (List.range g.len)).foldlM step g = (List.range g.len).foldlM (move? f) g := by
  have keepAll : ∀ t t', (t.len = g.len ∧ I t) → ∀ c : List Nat, c.foldlM (move? f) t = some t' →
      t'.len = g.len ∧ I t' := by
    intro t t' ht c hc
    refine foldlM_induct (fun _ t => t.len = g.len ∧ I t) ht ?_ hc
    rintro _ d _ u u' - ⟨hlen, hu⟩ hd
    exact ⟨(len_eq_of_frame (frame_move? hd)).trans hlen, keep d u u' hu hd⟩
  rw [← foldlM_chunks hn (move? f)]
  refine foldlM_congr (fun t => t.len = g.len ∧ I t) ⟨rfl, hI⟩ ?_ ?_
  · rintro c hc t ⟨hlen, ht⟩
    refine hstep c t (nodup_of_mem_chunks List.nodup_range hc) (fun d hd => ?_) hlen ht
    exact List.mem_range.mp (mem_of_mem_chunks hc hd)
  · exact fun c _ t t' ht hc => keepAll t t' ht c hc

/-- The chunk size of a map over the groups does not matter. -/
theorem mapGroups?_eq (g : Grouping) (chunk : Nat) (f : Nat → Nat → Option Nat) :
    g.mapGroups? chunk f = (List.range g.len).foldlM (move? f) g := by
  refine foldlM_chunks_move? (fun _ => True) trivial (by omega) (fun _ _ _ _ _ => trivial) ?_
  intro c t hc hlt hlen _
  rw [← mapM_setAll? hc, groupsOf?_eq_mapM (hlen ▸ hlt)]
  show ((c.mapM t.get?).bind fun groups => ((c.zip groups).mapM fun p => f p.1 p.2).bind _) = _
  rw [← Option.bind_assoc]
  congr 1
  have hpairs := mapM_bind_zip (f := some) (g := t.get?) c fun ps => ps.mapM fun p => f p.1 p.2
  rw [mapM_some, Option.bind_some, mapM_bind] at hpairs
  rw [hpairs]
  refine mapM_congr fun d _ => ?_
  cases t.get? d <;> rfl

/-- Nor does that of a map over groups and values. -/
theorem mapGroupsWithValues?_eq (g : Grouping) (chunk : Nat) (values : ValueTable)
    (f : Nat → Int → Option Nat) : g.mapGroupsWithValues? chunk values f =
      (List.range g.len).foldlM (move? fun d x => (values.value? d).bind (f x)) g := by
  refine foldlM_chunks_move? (fun _ => True) trivial (by omega) (fun _ _ _ _ _ => trivial) ?_
  intro c t hc hlt hlen _
  rw [← mapM_setAll? hc, groupsOf?_eq_mapM (hlen ▸ hlt)]
  show ((c.mapM t.get?).bind fun groups => (c.mapM values.value?).bind fun vs =>
    ((groups.zip vs).mapM fun p => f p.1 p.2).bind _) = _
  rw [mapM_bind_zip c fun ps => (ps.mapM fun p => f p.1 p.2).bind (t.setAll? c)]
  rw [← Option.bind_assoc, mapM_bind]
  congr 1
  refine mapM_congr fun d _ => ?_
  cases t.get? d <;> cases values.value? d <;> rfl

theorem moves_of_mapGroups? {chunk : Nat} (hs : g.mapGroups? chunk f = some g') :
    Moves f (List.range g.len) g g' := by
  rw [mapGroups?_eq] at hs
  exact moves_of_range? hs

theorem moves_of_mapGroupsWithValues? {chunk : Nat} {values : ValueTable}
    {f : Nat → Int → Option Nat} (hs : g.mapGroupsWithValues? chunk values f = some g') :
    Moves (fun d x => (values.value? d).bind (f x)) (List.range g.len) g g' := by
  rw [mapGroupsWithValues?_eq] at hs
  exact moves_of_range? hs

theorem exists_mapGroups? {chunk : Nat}
    (hf : ∀ d x, g.get? d = some x → ∃ y, f d x = some y ∧ g.Accepts y) :
    ∃ g', g.mapGroups? chunk f = some g' := by
  rw [mapGroups?_eq]
  exact exists_moves List.nodup_range (fun d hd => List.mem_range.mp hd) fun d _ => hf d

theorem exists_splitBy? {docs : DocSet} {split : Split} (hpos : g.Accepts split.positive)
    (hneg : g.Accepts split.negative) : ∃ g', g.splitBy? docs split = some g' := by
  have step : ∀ d ∈ List.range (g.len % halfWordBound), ∀ t : Grouping, t.frame = g.frame → ∃ t',
      ((t.get? d).bind fun x => if x = split.target then
        t.set? d (if docs.contains d then split.positive else split.negative) else some t) =
          some t' ∧ t'.frame = g.frame := by
    intro d hd t ht
    have hdt : d < t.len :=
      len_eq_of_frame ht ▸ Nat.lt_of_lt_of_le (List.mem_range.mp hd) (Nat.mod_le _ _)
    obtain ⟨x, hx⟩ := get?_of_lt_len hdt
    rw [hx, Option.bind_some]
    by_cases hxt : x = split.target
    · have hacc : t.Accepts (if docs.contains d then split.positive else split.negative) := by
        split_ifs
        · exact hpos.of_frame ht
        · exact hneg.of_frame ht
      obtain ⟨t', ht'⟩ := exists_set? hdt hacc
      exact ⟨t', by rw [if_pos hxt, ht'], (frame_set? ht').trans ht⟩
    · exact ⟨t, if_neg hxt, ht⟩
  obtain ⟨g', hg', -⟩ := exists_foldlM_of (fun t : Grouping => t.frame = g.frame) rfl step
  exact ⟨g', hg'⟩

end Grouping

end Cohort
