import Cohort.Proofs.Grouping.Moves

/-!
# Well-formed groupings — what holds of a grouping between two calls

`Roomy`: every group fits the capacity, and the width is the narrowest for it; making room and
writing keep it. `WellFormed` adds that the number of groups is one more than the largest group,
which the recount at the end of a regroup restores. `Unmoved`: the same groups, perhaps in other
storage.
-/

namespace Cohort

namespace Width

theorem fitting_eq_byte {c : Nat} : fitting c = byte ↔ c ≤ 255 := by
  unfold fitting
  split_ifs with hb hs
  · exact iff_of_true rfl hb
  · exact iff_of_false nofun hb
  · exact iff_of_false nofun hb

theorem fitting_eq_short {c : Nat} : fitting c = short ↔ 256 ≤ c ∧ c ≤ 65535 := by
  unfold fitting
  split_ifs with hb hs <;> simp only [maxGroup] at hb
  · exact iff_of_false nofun (by omega)
  · exact iff_of_true rfl ⟨by omega, hs⟩
  · exact iff_of_false nofun fun h => hs h.2

theorem fitting_eq_long {c : Nat} : fitting c = long ↔ 65536 ≤ c := by
  unfold fitting
  split_ifs with hb hs <;> simp only [maxGroup] at hb
  · exact iff_of_false nofun (by omega)
  · simp only [maxGroup] at hs
    exact iff_of_false nofun (by omega)
  · simp only [maxGroup] at hs
    exact iff_of_true rfl (by omega)

/-- A wider capacity that the words hold does not change their width. -/
theorem fitting_max {c m : Nat} (hm : m ≤ (fitting c).maxGroup) :
    fitting (max c m) = fitting c := by
  by_cases hb : c ≤ byte.maxGroup
  · have hc : fitting c = byte := if_pos hb
    rw [hc] at hm ⊢
    exact if_pos (Nat.max_le.mpr ⟨hb, hm⟩)
  · have hb' : ¬ max c m ≤ byte.maxGroup := fun h => hb (Nat.max_le.mp h).1
    by_cases hs : c ≤ short.maxGroup
    · have hc : fitting c = short := (if_neg hb).trans (if_pos hs)
      rw [hc] at hm ⊢
      exact (if_neg hb').trans (if_pos (Nat.max_le.mpr ⟨hs, hm⟩))
    · have hs' : ¬ max c m ≤ short.maxGroup := fun h => hs (Nat.max_le.mp h).1
      have hc : fitting c = long := (if_neg hb).trans (if_neg hs)
      rw [hc]
      exact (if_neg hb').trans (if_neg hs')

end Width

namespace Grouping

/-- Every group fits the capacity, and the width is the narrowest for it. The documents have ids. -/
structure Roomy (g : Grouping) (numDocs : Nat) : Prop where
  len_eq : g.len = numDocs
  numDocs_le : numDocs ≤ maxId
  le_capacity : ∀ d x, g.get? d = some x → x ≤ g.capacity
  width_eq : ∀ s, g = stored s → s.width = .fitting s.capacity

/-- A roomy grouping whose number of groups is one more than its largest group. -/
structure WellFormed (g : Grouping) (numDocs : Nat) : Prop extends Roomy g numDocs where
  lt_numGroups : ∀ d x, g.get? d = some x → x < g.numGroups
  top_attained : 0 < numDocs → ∃ d, g.get? d = some (g.numGroups - 1)
  numGroups_pos : 0 < g.numGroups

/-- The same groups, in storage that is well-formed. -/
structure Unmoved (numDocs : Nat) (g g' : Grouping) : Prop where
  wellFormed : g'.WellFormed numDocs
  get?_eq : ∀ d, g'.get? d = g.get? d
  numGroups_eq : g'.numGroups = g.numGroups

variable {g g' : Grouping} {numDocs m : Nat}

theorem wellFormed_constant (x : Nat) (hn : numDocs ≤ maxId) :
    (constant x numDocs).WellFormed numDocs := by
  have hget : ∀ d y, (constant x numDocs).get? d = some y → y = x := by
    intro d y hy
    simp only [get?] at hy
    split_ifs at hy
    cases hy
    rfl
  refine ⟨⟨rfl, hn, ?_, ?_⟩, ?_, ?_, Nat.succ_pos x⟩
  · exact fun d y hy => Nat.le_of_eq (hget d y hy)
  · exact fun s hs => by cases hs
  · exact fun d y hy => Nat.lt_succ_of_le (Nat.le_of_eq (hget d y hy))
  · exact fun hn => ⟨0, if_pos hn⟩

theorem WellFormed.unmoved (hg : g.WellFormed numDocs) : Unmoved numDocs g g :=
  ⟨hg, fun _ => rfl, rfl⟩

theorem Roomy.len_le (hg : g.Roomy numDocs) : g.len ≤ maxId := hg.len_eq.symm ▸ hg.numDocs_le

/-- Groups stay within the number of groups. -/
theorem WellFormed.le_top (hg : g.WellFormed numDocs) {d x : Nat} (hx : g.get? d = some x) :
    x ≤ g.numGroups - 1 := by
  have := hg.lt_numGroups d x hx
  omega

/-! ### Making room -/

/-- The same groups in storage of their own, with room for `maxGroup`. -/
def widened (g : Grouping) (maxGroup : Nat) : StoredGroups :=
  let capacity := max maxGroup g.capacity
  ⟨.fitting capacity, capacity, g.numGroups, g.toList.toArray⟩

/-- The grouping after `makeRoom`. -/
def roomFor (g : Grouping) (maxGroup : Nat) : Grouping :=
  if g.fits maxGroup then g.announce maxGroup else stored (g.widened maxGroup)

theorem get?_roomFor (g : Grouping) (m d : Nat) : (g.roomFor m).get? d = g.get? d := by
  unfold roomFor
  split_ifs
  · cases g <;> rfl
  · show g.toList.toArray[d]? = g.get? d
    rw [List.getElem?_toArray, getElem?_toList]

theorem len_roomFor (g : Grouping) (m : Nat) : (g.roomFor m).len = g.len := by
  unfold roomFor
  split_ifs
  · cases g <;> rfl
  · show g.toList.toArray.size = g.len
    rw [List.size_toArray, length_toList]

theorem numGroups_roomFor (g : Grouping) (m : Nat) : (g.roomFor m).numGroups = g.numGroups := by
  unfold roomFor
  split_ifs <;> cases g <;> rfl

theorem capacity_roomFor (g : Grouping) (m : Nat) :
    (g.roomFor m).capacity = max g.capacity m := by
  unfold roomFor
  split_ifs with hf
  · cases g with
    | constant => cases hf
    | stored s => rfl
  · exact Nat.max_comm m g.capacity

theorem le_capacity_roomFor (g : Grouping) {x : Nat} (hx : x ≤ m) :
    x ≤ (g.roomFor m).capacity := by
  rw [capacity_roomFor]
  omega

/-- Words that are the narrowest for the capacity stay so. -/
theorem width_roomFor (hg : ∀ s, g = stored s → s.width = .fitting s.capacity) (m : Nat) :
    ∀ s, g.roomFor m = stored s → s.width = .fitting s.capacity := by
  intro s hs
  unfold roomFor at hs
  split_ifs at hs with hf
  · cases g with
    | constant => cases hf
    | stored t =>
      cases hs
      simp only [fits, decide_eq_true_eq, hg t rfl] at hf
      exact (hg t rfl).trans (Width.fitting_max hf).symm
  · cases hs
    rfl

theorem Roomy.roomFor (hg : g.Roomy numDocs) (m : Nat) : (g.roomFor m).Roomy numDocs := by
  refine ⟨(len_roomFor g m).trans hg.len_eq, hg.numDocs_le, fun d x hx => ?_,
    width_roomFor hg.width_eq m⟩
  rw [get?_roomFor] at hx
  rw [capacity_roomFor]
  have := hg.le_capacity d x hx
  omega

/-- Making room moves no document. -/
theorem WellFormed.unmoved_roomFor (hg : g.WellFormed numDocs) (m : Nat) :
    Unmoved numDocs g (g.roomFor m) := by
  refine ⟨⟨hg.toRoomy.roomFor m, ?_, ?_, ?_⟩, get?_roomFor g m, numGroups_roomFor g m⟩
  · intro d x hx
    rw [get?_roomFor] at hx
    rw [numGroups_roomFor]
    exact hg.lt_numGroups d x hx
  · intro hn
    obtain ⟨d, hd⟩ := hg.top_attained hn
    exact ⟨d, by rw [get?_roomFor, numGroups_roomFor, hd]⟩
  · rw [numGroups_roomFor]
    exact hg.numGroups_pos

/-! ### Writing and counting -/

/-- Writing groups within the capacity keeps a grouping roomy. -/
theorem Roomy.overwrites (hg : g.Roomy numDocs) (ho : Overwrites (· ≤ g.capacity) g g') :
    g'.Roomy numDocs := by
  refine ⟨(len_eq_of_frame ho.frame_eq).trans hg.len_eq, hg.numDocs_le, ?_, ?_⟩
  · intro d x hx
    rw [capacity_eq_of_frame ho.frame_eq]
    rcases ho.group d x hx with hx | hx
    · exact hg.le_capacity d x hx
    · exact hx
  · rintro s' rfl
    obtain ⟨s, rfl, hw, hc⟩ := stored_of_frame ho.frame_eq
    rw [hw, hc]
    exact hg.width_eq s rfl

theorem bytes_recount? (hr : g.recount? = some g') : g'.bytes = g.bytes := by
  cases g with
  | constant x n =>
    simp only [recount?] at hr
    split_ifs at hr
    cases hr
    rfl
  | stored s =>
    simp only [recount?] at hr
    split_ifs at hr
    cases hr
    rfl

theorem len_recount? (hr : g.recount? = some g') : g'.len = g.len := by
  cases g with
  | constant x n =>
    simp only [recount?] at hr
    split_ifs at hr
    cases hr
    rfl
  | stored s =>
    simp only [recount?] at hr
    split_ifs at hr
    cases hr
    rfl

theorem get?_recount? (hr : g.recount? = some g') (d : Nat) : g'.get? d = g.get? d := by
  cases g with
  | constant x n =>
    simp only [recount?] at hr
    split_ifs at hr
    cases hr
    rfl
  | stored s =>
    simp only [recount?] at hr
    split_ifs at hr
    cases hr
    rfl

/-- A recount makes a roomy grouping well-formed. -/
theorem Roomy.recount? (hg : g.Roomy numDocs) (hr : g.recount? = some g') :
    g'.WellFormed numDocs := by
  cases g with
  | constant x n =>
    simp only [Grouping.recount?] at hr
    split_ifs at hr
    cases hr
    rw [← hg.len_eq]
    exact wellFormed_constant x hg.len_le
  | stored s =>
    simp only [Grouping.recount?] at hr
    split_ifs at hr
    cases hr
    -- the number of groups is read off the largest word, so every word is below it
    have hmem : ∀ d x : Nat, s.groups[d]? = some x → x ∈ s.groups.toList := by
      intro d x hx
      rw [← Array.getElem?_toList] at hx
      exact List.mem_of_getElem? hx
    refine ⟨⟨hg.len_eq, hg.numDocs_le, hg.le_capacity, ?_⟩, ?_, ?_, Nat.succ_pos _⟩
    · rintro t ht
      cases ht
      exact hg.width_eq s rfl
    · intro d x hx
      show x < s.groups.foldl max 0 + 1
      rw [← Array.foldl_toList]
      exact Nat.lt_succ_of_le (le_foldl_max 0 (hmem d x hx))
    · intro hn
      have hne : s.groups.toList ≠ [] := by
        intro he
        have hlen : s.groups.size = numDocs := hg.len_eq
        rw [← Array.length_toList, he] at hlen
        exact absurd hlen (Nat.ne_of_lt hn)
      obtain ⟨d, hd⟩ := List.mem_iff_getElem?.mp (foldl_max_mem hne)
      rw [Array.getElem?_toList] at hd
      refine ⟨d, ?_⟩
      show s.groups[d]? = some (s.groups.foldl max 0 + 1 - 1)
      rw [hd, ← Array.foldl_toList]
      rfl

end Grouping

end Cohort
