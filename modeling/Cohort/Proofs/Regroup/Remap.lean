import Cohort.Proofs.Regroup.Feed
import Cohort.Regroup.Remap

/-!
# Remaps — what remapping groups ensures, when it goes through, and where it sends every group

The table of new groups is written pair by pair, so the last pair of a group counts: `remapped` says
so of one group. The shortcuts look at the table and not at the documents; each of them does what
the rewrite of all documents would have done.
-/

namespace Cohort.Regroup

open Pass

variable {feed : Feed} {g : Grouping} {numDocs : Nat}

theorem le_foldl_max_of_getElem? {table : Array Nat} {i x : Nat} (hx : table[i]? = some x) :
    x ≤ table.foldl max 0 := by
  rw [← Array.foldl_toList]
  rw [← Array.getElem?_toList] at hx
  exact le_foldl_max 0 (List.mem_of_getElem? hx)

theorem regroups_byRemap (hg : g.WellFormed numDocs) (sources destinations : List Nat)
    (onlyRemapped : Bool) :
    Regroups numDocs (byRemap feed sources destinations onlyRemapped) g := by
  refine ensures_bind (ensures_orRefused (fun _ _ => ?_) fun _ => hg.unmoved)
  refine regroups_unlessFilteredOut hg fun _ => ensures_scratch ?_ fun _ => hg.unmoved
  simp only
  split_ifs
  · exact ensures_pure ⟨hg, rfl⟩
  · exact regroups_replace 0 hg
  · refine regroups_makeRoom hg (regroups_change (hg.toRoomy.roomFor _) fun g' hg' => ?_)
    refine (Grouping.moves_of_mapGroups? hg').overwrites fun d x y _ hy => .inr ?_
    exact Grouping.le_capacity_roomFor g (le_foldl_max_of_getElem? hy)

/-! ### When it goes through -/

theorem size_remapTable (sources destinations : List Nat) (onlyRemapped : Bool) (n : Nat) :
    (remapTable sources destinations onlyRemapped n).size = n := by
  unfold remapTable
  suffices h : ∀ (pairs : List (Nat × Nat)) (table : Array Nat),
      (pairs.foldl (fun t (p : Nat × Nat) => t.setIfInBounds p.1 p.2) table).size = table.size by
    rw [h]
    split_ifs <;> simp
  intro pairs
  induction pairs with
  | nil => exact fun _ => rfl
  | cons p pairs ih =>
    intro table
    rw [List.foldl_cons, ih, Array.size_setIfInBounds]

/-- A table only sends groups to themselves, to group 0 or to a destination. -/
theorem mem_remapTable {sources destinations : List Nat} {onlyRemapped : Bool} {n x : Nat}
    (hx : x ∈ remapTable sources destinations onlyRemapped n) :
    x < n ∨ x ∈ destinations := by
  unfold remapTable at hx
  suffices h : ∀ (pairs : List (Nat × Nat)) (table : Array Nat),
      x ∈ pairs.foldl (fun t (p : Nat × Nat) => t.setIfInBounds p.1 p.2) table →
        x ∈ table ∨ ∃ p ∈ pairs, p.2 = x by
    rcases h _ _ hx with hx | ⟨p, hp, rfl⟩
    · left
      split_ifs at hx
      · have := Array.mem_replicate.mp hx
        omega
      · simpa using hx
    · exact .inr (List.of_mem_zip hp).2
  intro pairs
  induction pairs with
  | nil => exact fun _ h => .inl h
  | cons p pairs ih =>
    intro table h
    rw [List.foldl_cons] at h
    rcases ih _ h with h | ⟨q, hq, rfl⟩
    · rcases Array.mem_or_eq_of_mem_setIfInBounds h with h | rfl
      · exact .inl h
      · exact .inr ⟨p, List.mem_cons_self, rfl⟩
    · exact .inr ⟨q, List.mem_cons_of_mem _ hq, rfl⟩

/-- A remap goes through if no destination is the largest id. Its room is the last claim. -/
theorem concludes_byRemap (hg : g.Counted numDocs) (sources destinations : List Nat)
    (onlyRemapped : Bool) :
    Concludes (byRemap feed sources destinations onlyRemapped) g (fun _ g' => g' = g)
      (∃ x ∈ destinations, maxId ≤ x) := by
  refine completes_bind (completes_orRefused (fun _ _ => ?_) fun _ _ => rfl)
  refine concludes_unlessFilteredOut hg fun _ => completes_scratch ?_ fun _ => rfl
  have hsize := size_remapTable sources destinations onlyRemapped g.numGroups
  have hmem := @mem_remapTable sources destinations onlyRemapped g.numGroups
  simp only
  generalize remapTable sources destinations onlyRemapped g.numGroups = table at hsize hmem
  split_ifs
  · exact completes_pure hg.numGroups_le
  · exact concludes_replace (by decide)
  · have htop : (¬ ∃ x ∈ destinations, maxId ≤ x) → table.foldl max 0 < maxId := by
      intro hb
      rw [← Array.foldl_toList]
      refine foldl_max_lt (by decide) fun x hx => ?_
      rcases hmem (Array.mem_toList_iff.mp hx) with hx | hx
      · have := hg.numGroups_le
        omega
      · exact Nat.lt_of_not_le fun h => hb ⟨x, hx, h⟩
    refine completes_bind (completes_makeRoom hg ?_ fun _ => rfl)
    refine concludes_moves hg htop (Grouping.mapGroups?_eq _ _ _)
      (fun _ _ _ _ hy => le_foldl_max_of_getElem? hy) fun _ d _ x hx => ?_
    have hlt : x < table.size := hsize ▸ hg.lt_numGroups d x hx
    exact ⟨table[x], Array.getElem?_eq_getElem hlt⟩

/-! ### Refusals -/

theorem checkRemap_ok {sources destinations : List Nat} {u : Unit}
    (h : checkRemap sources destinations = .ok u) :
    sources.length = destinations.length ∧ 0 ∉ sources := by
  obtain ⟨hlen, h⟩ := require_bind_ok h
  have hzero := require_ok h
  exact ⟨of_decide_eq_true hlen, by simpa using hzero⟩

/-- Lists that fail their check are refused, whatever the groups are. -/
theorem checkRemap_error {sources destinations : List Nat} {e : Error}
    (h : checkRemap sources destinations = .error e) :
    (∃ cause, e = .invalidArgument cause) ∧
      (sources.length ≠ destinations.length ∨ 0 ∈ sources) := by
  rcases require_bind_error h with ⟨hlen, rfl⟩ | ⟨-, h⟩
  · exact ⟨⟨_, rfl⟩, .inl (of_decide_eq_false hlen)⟩
  · refine ⟨⟨_, require_error h⟩, .inr ?_⟩
    by_contra hzero
    have hok : (!sources.contains 0) = true := by simpa using hzero
    rw [hok] at h
    cases h

/-- A remap is refused for its lists just when these fail their check, and otherwise only for lack
of memory. -/
theorem completes_byRemap (hlen : g.len ≤ maxId) (sources destinations : List Nat)
    (onlyRemapped : Bool) :
    Completes (byRemap feed sources destinations onlyRemapped) g
      (fun _ _ => sources.length = destinations.length ∧ 0 ∉ sources)
      (fun e _ => (∃ cause, e = .invalidArgument cause) ∧
          (sources.length ≠ destinations.length ∨ 0 ∈ sources) ∨
        (∃ s, e = .outOfMemory s) ∧ sources.length = destinations.length ∧ 0 ∉ sources)
      (sources.length = destinations.length ∧ 0 ∉ sources) := by
  refine completes_bind (completes_orRefused (fun _ hcheck => ?_)
    fun e he => .inl (checkRemap_error he))
  have hok := checkRemap_ok hcheck
  refine completes_unlessFilteredOut (fun _ => hok) fun _ =>
    completes_scratch ?_ fun s => .inr ⟨⟨s, rfl⟩, hok⟩
  simp only
  split_ifs
  · exact completes_pure hok
  · exact completes_bind (completes_replace (completes_pure hok))
  · refine completes_bind (completes_makeRoom_or hlen ?_ (fun s => .inr ⟨⟨s, rfl⟩, hok⟩)
      fun _ => hok)
    refine completes_bind (completes_change (fun g' hg' => ?_) fun _ => hok)
    exact ⟨Grouping.bytes_eq_of_frame (Grouping.moves_of_mapGroups? hg').frame_eq,
      completes_recount (fun _ _ => hok) fun _ => hok⟩

/-! ### Where every group goes -/

/-- The new group of the documents of `group`: the destination of the last pair that has it as its
source. Groups without a pair stay, or go to group 0 if only remapped ones are to be kept. -/
def remapped (pairs : List (Nat × Nat)) (onlyRemapped : Bool) (group : Nat) : Nat :=
  (pairs.reverse.lookup group).getD (if onlyRemapped then 0 else group)

variable {pairs : List (Nat × Nat)} {sources destinations : List Nat} {onlyRemapped : Bool}
  {group : Nat}

theorem getElem?_foldl_setIfInBounds (pairs : List (Nat × Nat)) {table : Array Nat}
    (hgroup : group < table.size) :
    (pairs.foldl (fun t (p : Nat × Nat) => t.setIfInBounds p.1 p.2) table)[group]? =
      (pairs.reverse.lookup group).or table[group]? := by
  induction pairs generalizing table with
  | nil => rfl
  | cons p pairs ih =>
    rw [List.foldl_cons, ih (by rwa [Array.size_setIfInBounds]), List.reverse_cons,
      List.lookup_append, Option.or_assoc]
    congr 1
    by_cases hp : group = p.1
    · subst hp
      rw [Array.getElem?_setIfInBounds_self_of_lt hgroup, List.lookup_cons_self]
      rfl
    · rw [Array.getElem?_setIfInBounds_ne (Ne.symm hp), List.lookup_cons, beq_false_of_ne hp]
      rfl

theorem getElem?_remapTable {n : Nat} (hgroup : group < n) :
    (remapTable sources destinations onlyRemapped n)[group]? =
      some (remapped (sources.zip destinations) onlyRemapped group) := by
  unfold remapTable
  rw [getElem?_foldl_setIfInBounds _ (by split_ifs <;> simpa using hgroup)]
  unfold remapped
  cases (sources.zip destinations).reverse.lookup group with
  | some d => rfl
  | none => cases onlyRemapped <;> simp [hgroup]

/-- No pair speaks of group 0, so it stays. -/
theorem remapped_zero (h : 0 ∉ sources) :
    remapped (sources.zip destinations) onlyRemapped 0 = 0 := by
  unfold remapped
  cases hl : (sources.zip destinations).reverse.lookup 0 with
  | none => cases onlyRemapped <;> rfl
  | some d => exact absurd (List.of_mem_zip (List.mem_reverse.mp (mem_of_lookup hl))).1 h

/-- Every document goes where its group is remapped to, and all of them at once. -/
theorem sends_byRemap (hg : g.WellFormed numDocs) (sources destinations : List Nat)
    (onlyRemapped : Bool) :
    Sends numDocs (fun _ x => (remapTable sources destinations onlyRemapped g.numGroups)[x]?)
      (byRemap feed sources destinations onlyRemapped) g := by
  refine sends_orRefused_bind hg fun _ hcheck => sends_unlessFilteredOut hg (fun d y hy => ?_)
    fun hn => ensures_scratch ?_ fun _ => hg.unmoved
  · by_cases hn : 0 < g.numGroups
    · rw [getElem?_remapTable hn, remapped_zero (checkRemap_ok hcheck).2] at hy
      exact (Option.some.inj hy).symm
    · rw [Array.getElem?_eq_none (by rw [size_remapTable]; omega)] at hy
      cases hy
  · generalize remapTable sources destinations onlyRemapped g.numGroups = table
    simp only
    split_ifs with hsame hzero
    · rw [eq_of_beq hsame]
      refine ensures_pure ⟨hg, rfl, fun d x y hx hy => ?_⟩
      obtain ⟨_, hy⟩ := Array.getElem?_eq_some_iff.mp hy
      rw [hx, ← hy, Array.getElem_range]
    · refine sends_replace hg fun d x y _ hy => ?_
      exact eq_of_beq (Array.all_eq_true_iff_forall_mem.mp hzero y (Array.mem_of_getElem? hy))
    · refine sends_makeRoom_bind hg (sends_rewrite hg
        (fun g' hg' => Grouping.moves_of_mapGroups? hg') fun d x y _ hy => ?_)
      exact le_foldl_max_of_getElem? hy

/-- Once it is remapped, every document of a group is in the new group. -/
theorem get?_of_remapped {n : Nat} {g' : Grouping} (hg : g.WellFormed numDocs)
    (h : Sent numDocs (fun _ x => (remapTable sources destinations onlyRemapped g.numGroups)[x]?)
      g n g') {d : Nat} (hgroup : g.get? d = some group) :
    g'.get? d = some (remapped (sources.zip destinations) onlyRemapped group) :=
  h.follows d group _ hgroup (getElem?_remapTable (hg.lt_numGroups d group hgroup))

/-! ### Pairs that matter, and pairs that do not -/

/-- Pairs that another group is the source of do not matter. -/
theorem remapped_filter {keep : Nat → Bool} (hgroup : keep group = true) :
    remapped (pairs.filter (keep ·.1)) onlyRemapped group =
      remapped pairs onlyRemapped group := by
  suffices h : ∀ ps : List (Nat × Nat), (ps.filter (keep ·.1)).lookup group = ps.lookup group by
    unfold remapped
    rw [← List.filter_reverse, h]
  intro ps
  induction ps with
  | nil => rfl
  | cons p ps ih =>
    rw [List.filter_cons, List.lookup_cons]
    by_cases hp : group = p.1
    · rw [if_pos (hp ▸ hgroup), List.lookup_cons, hp, beq_self_eq_true]
    · rw [beq_false_of_ne hp]
      split_ifs
      · rw [List.lookup_cons, beq_false_of_ne hp]
        exact ih
      · exact ih

theorem remapped_of_mem (hkeys : (pairs.map (·.1)).Nodup) {d : Nat} (h : (group, d) ∈ pairs) :
    remapped pairs onlyRemapped group = d := by
  have hkeys' : (pairs.reverse.map (·.1)).Nodup := by
    rwa [List.map_reverse, List.nodup_reverse]
  unfold remapped
  rw [(lookup_eq_some_iff_mem hkeys').mpr (List.mem_reverse.mpr h)]
  rfl

theorem remapped_of_not_mem (h : group ∉ pairs.map (·.1)) :
    remapped pairs onlyRemapped group = if onlyRemapped then 0 else group := by
  unfold remapped
  cases hl : pairs.reverse.lookup group with
  | none => rfl
  | some d =>
    have hmem := List.mem_reverse.mp (mem_of_lookup hl)
    exact absurd (List.mem_map_of_mem (f := (·.1)) hmem) h

/-- Pairs that permute their sources lead no two groups to the same one, if both groups are among
the sources or the others stay. -/
theorem remapped_injective (hkeys : (pairs.map (·.1)).Nodup)
    (hperm : (pairs.map (·.2)).Perm (pairs.map (·.1))) {x y : Nat}
    (hx : onlyRemapped = true → x ∈ pairs.map (·.1))
    (hy : onlyRemapped = true → y ∈ pairs.map (·.1))
    (h : remapped pairs onlyRemapped x = remapped pairs onlyRemapped y) : x = y := by
  have hmem : ∀ {z}, z ∈ pairs.map (·.1) → (z, remapped pairs onlyRemapped z) ∈ pairs := by
    intro z hz
    obtain ⟨⟨_, d⟩, hp, rfl⟩ := List.mem_map.mp hz
    rwa [remapped_of_mem hkeys hp]
  have hstays : ∀ {z}, (onlyRemapped = true → z ∈ pairs.map (·.1)) → z ∉ pairs.map (·.1) →
      remapped pairs onlyRemapped z = z := by
    intro z hflag hz
    rw [remapped_of_not_mem hz, if_neg fun ht => hz (hflag ht)]
  -- a group that is led to a source is a source itself, as it would stay otherwise
  have hback : ∀ {z}, z ∈ pairs.map (·.1) → remapped pairs onlyRemapped z ∈ pairs.map (·.1) :=
    fun hz => hperm.subset (List.mem_map_of_mem (f := (·.2)) (hmem hz))
  by_cases hxs : x ∈ pairs.map (·.1) <;> by_cases hys : y ∈ pairs.map (·.1)
  · have hpair := List.inj_on_of_nodup_map (hperm.nodup_iff.mpr hkeys) (hmem hxs) (hmem hys) h
    exact congrArg Prod.fst hpair
  · have hsource := hback hxs
    rw [h, hstays hy hys] at hsource
    exact absurd hsource hys
  · have hsource := hback hys
    rw [← h, hstays hx hxs] at hsource
    exact absurd hsource hxs
  · rwa [hstays hx hxs, hstays hy hys] at h

end Cohort.Regroup
