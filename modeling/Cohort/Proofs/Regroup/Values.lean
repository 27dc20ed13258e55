import Cohort.Proofs.Bucket
import Cohort.Proofs.Regroup.Feed
import Cohort.Proofs.Shard.Values
import Cohort.Regroup.Values

/-!
# Regrouping by values — what buckets, grids and ranges ensure, and when they go through

A document goes to its group by its own values, also where the bounds of a table already decide it
for all of them. Bucketing by values that all documents have can only break where the highest group,
or the number of cells, is the largest id itself: the check on the groups lets it pass, but then
there is no number of groups.
-/

namespace Cohort.Regroup

open Pass
open Grouping (Moves)

variable {feed : Feed} {g g' : Grouping} {numDocs : Nat}

/-! ### Buckets -/

/-- All documents in the same bucket: room is only made for the top group's composition. -/
theorem sends_toOneBucket (hg : g.WellFormed numDocs) {bucket total : Nat}
    (hb : bucket ≤ total) (hmax : (g.numGroups - 1) * total ≤ maxId) :
    Sends numDocs (fun _ group => compose? group bucket total)
      (toOneBucket feed bucket total) g := by
  have hcompose : ∀ d x y, g.get? d = some x → compose? x bucket total = some y →
      y = composition x bucket total := fun d x y hx hy =>
    (Option.some.inj ((compose?_eq (hg.le_top hx) hb hmax).symm.trans hy)).symm
  unfold toOneBucket
  by_cases h0 : bucket = 0
  · rw [if_pos h0]
    refine sends_replace hg fun d x y hx hy => ?_
    rw [hcompose d x y hx hy]
    exact if_pos (.inr h0)
  rw [if_neg h0]
  refine ensures_bind (ensures_grouping ?_)
  cases g with
  | constant x n =>
    refine sends_orBroken_bind fun composed hc => sends_replace_recount hg fun d y z hy hz => ?_
    obtain rfl := Grouping.eq_of_get?_constant hy
    exact Option.some.inj (hz.symm.trans hc)
  | stored s =>
    refine sends_orBroken_bind fun composed hc => sends_makeRoom_bind hg ?_
    obtain rfl := Option.some.inj ((compose?_eq (Nat.le_refl _) hb hmax).symm.trans hc)
    refine sends_rewrite hg (fun g' hg' => Grouping.moves_of_mapGroups? hg') fun d x y hx hy => ?_
    rw [hcompose d x y hx hy]
    exact composition_mono (hg.le_top hx)

/-- The new group of a document by the bucket of its value. -/
def bucketOf? (buckets : IntervalBuckets) (values : ValueTable) (doc group : Nat) : Option Nat :=
  (values.value? doc).bind fun value => if group = 0 then some 0 else
    (buckets.bucket? value).bind fun bucket => compose? group bucket buckets.total

/-- Of a document with a value that has a bucket, group 0 need not be told apart. -/
theorem compose?_of_bucketOf? {buckets : IntervalBuckets} {values : ValueTable} {d x y bucket : Nat}
    {v : Int} (hv : values.value? d = some v) (hbucket : buckets.bucket? v = some bucket)
    (h : bucketOf? buckets values d x = some y) : compose? x bucket buckets.total = some y := by
  unfold bucketOf? at h
  rw [hv, Option.bind_some, hbucket, Option.bind_some] at h
  split_ifs at h with h0
  · subst h0
    exact h
  · exact h

/-- Buckets send every document where its own value belongs. The shortcut for tables whose bounds
share a bucket does the same. -/
theorem sends_byBuckets (hg : g.WellFormed numDocs) (values : ValueTable)
    {buckets : IntervalBuckets} (hb : buckets.Proper) :
    Sends numDocs (bucketOf? buckets values) (byBuckets feed values buckets) g := by
  refine sends_unlessFilteredOut hg (fun d y hy => ?_) fun hn => ?_
  · obtain ⟨v, -, hy⟩ := Option.bind_eq_some_iff.mp hy
    exact (Option.some.inj hy).symm
  refine sends_orRefused_bind hg fun highest hh => sends_orBroken_bind fun common hcommon => ?_
  obtain ⟨rfl, hmax⟩ := highestComposed_ok hh
  cases common with
  | some bucket =>
    -- the value lies between the bounds, so its bucket is the one that they share
    refine (sends_toOneBucket hg (hb.common?_le_total hcommon) hmax).mono fun d x y hy => ?_
    obtain ⟨v, hv, -⟩ := Option.bind_eq_some_iff.mp hy
    obtain ⟨hlo, hhi⟩ := ValueTable.bounds_of_value? hv
    exact compose?_of_bucketOf? hv (hb.bucket?_of_common? hcommon hlo hhi) hy
  | none =>
    refine (sends_makeRoom_bind hg (sends_rewrite hg
      (fun g' hg' => Grouping.moves_of_mapGroupsWithValues? hg') fun d x y hx hy => ?_)).mono
      fun d x y hy => ?_
    · obtain ⟨v, -, hy⟩ := Option.bind_eq_some_iff.mp hy
      obtain ⟨bucket, hbucket, hy⟩ := Option.bind_eq_some_iff.mp hy
      have hle := hb.bucket?_le_total hbucket
      rw [compose?_eq (hg.le_top hx) hle hmax] at hy
      cases hy
      exact composition_le (hg.le_top hx) hle
    · obtain ⟨v, hv, -⟩ := Option.bind_eq_some_iff.mp hy
      obtain ⟨bucket, hbucket⟩ := IntervalBuckets.exists_bucket? (total_le_maxId hn hmax) v
      refine Option.bind_eq_some_iff.mpr ⟨v, hv, Option.bind_eq_some_iff.mpr ⟨bucket, hbucket, ?_⟩⟩
      exact compose?_of_bucketOf? hv hbucket hy

/-- Buckets only go through where all composed groups are group ids. -/
theorem ensures_byBuckets (hg : g.WellFormed numDocs) (values : ValueTable)
    {buckets : IntervalBuckets} (hb : buckets.Proper) :
    Ensures (byBuckets feed values buckets) g
      (fun n g' => (1 < g.numGroups → (g.numGroups - 1) * buckets.total ≤ maxId) ∧
        Sent numDocs (bucketOf? buckets values) g n g') (fun _ g' => g.Unmoved numDocs g') := by
  by_cases hfits : 1 < g.numGroups → (g.numGroups - 1) * buckets.total ≤ maxId
  · exact Ensures.mono (sends_byBuckets hg values hb) fun _ _ h => ⟨hfits, h⟩
  · obtain ⟨hn, hbig⟩ := Classical.not_imp.mp hfits
    refine ensures_unlessFilteredOut (fun hle => absurd hn (Nat.not_lt_of_le hle)) fun _ =>
      ensures_bind (ensures_orRefused (fun highest hh => ?_) fun _ => hg.unmoved)
    obtain ⟨rfl, hmax⟩ := highestComposed_ok hh
    exact absurd hmax hbig

/-! ### Grids -/

/-- All documents outside group 0 in the same group. -/
theorem sends_toOneGroup (hg : g.WellFormed numDocs) (x : Nat) :
    Sends numDocs (fun _ old => some (if old = 0 then 0 else x)) (toOneGroup feed x) g := by
  refine ensures_bind (ensures_grouping ?_)
  cases g with
  | constant old n =>
    by_cases h0 : old ≠ 0
    · simp only [if_pos h0]
      refine sends_replace_recount hg fun d y z hy hz => ?_
      obtain rfl := Grouping.eq_of_get?_constant hy
      cases hz
      exact if_neg h0
    · obtain rfl := Decidable.not_not.mp h0
      simp only [if_neg h0]
      refine ensures_recount fun g' hg' => ⟨hg.toRoomy.recount? hg', rfl, fun d y z hy hz => ?_⟩
      obtain rfl := Grouping.eq_of_get?_constant hy
      cases hz
      rw [Grouping.get?_recount? hg', hy]
      rfl
  | stored s =>
    refine sends_makeRoom_bind hg (sends_rewrite hg
      (fun g' hg' => Grouping.moves_of_mapGroups? hg') fun d y z _ hz => ?_)
    cases hz
    split_ifs
    · exact Nat.zero_le _
    · exact Nat.le_refl x

/-- The new group of a document on a grid. -/
def cellOf? (grid : Grid) (x y : ValueTable) (doc group : Nat) : Option Nat :=
  (x.value? doc).bind fun vx => (y.value? doc).bind fun vy =>
    if group = 0 then some 0 else grid.cell? vx vy

theorem exists_of_cellOf? {grid : Grid} {x y : ValueTable} {d old new : Nat}
    (h : cellOf? grid x y d old = some new) : ∃ vx vy, x.value? d = some vx ∧
      y.value? d = some vy ∧ (if old = 0 then some 0 else grid.cell? vx vy) = some new := by
  obtain ⟨vx, hvx, h⟩ := Option.bind_eq_some_iff.mp h
  obtain ⟨vy, hvy, h⟩ := Option.bind_eq_some_iff.mp h
  exact ⟨vx, vy, hvx, hvy, h⟩

/-- A grid only writes its cells, or group 0. -/
theorem cellOf?_le_total {grid : Grid} (hx : grid.x.Proper) (hy : grid.y.Proper)
    {x y : ValueTable} {d old new : Nat} (h : cellOf? grid x y d old = some new) :
    new ≤ grid.total := by
  obtain ⟨vx, vy, -, -, h⟩ := exists_of_cellOf? h
  split_ifs at h
  · cases h
    exact Nat.zero_le _
  · exact Grid.cell?_le_total hx hy h

/-- Reading a chunk of groups and of both values, then writing it, is moving its documents. -/
theorem cellChunk?_eq {grid : Grid} {x y : ValueTable} {docs : List Nat} (hdocs : docs.Nodup)
    (hlt : ∀ d ∈ docs, d < g.len) :
    cellChunk? grid x y g docs = docs.foldlM (Grouping.move? (cellOf? grid x y)) g := by
  have hread : ∀ k : List (Nat × Int × Int) → Option Grouping,
      ((docs.mapM g.get?).bind fun groups => (docs.mapM x.value?).bind fun xs =>
        (docs.mapM y.value?).bind fun ys => k (groups.zip (xs.zip ys))) =
      (docs.mapM fun d => (g.get? d).bind fun group =>
        ((x.value? d).bind fun vx => (y.value? d).map (vx, ·)).map (group, ·)).bind k := by
    intro k
    rw [← mapM_bind_zip]
    refine congrArg _ (funext fun groups => ?_)
    exact mapM_bind_zip docs fun ps => k (groups.zip ps)
  rw [← Grouping.mapM_setAll? hdocs]
  unfold cellChunk?
  rw [Grouping.groupsOf?_eq_mapM hlt]
  show ((docs.mapM g.get?).bind fun groups => (docs.mapM x.value?).bind fun xs =>
    (docs.mapM y.value?).bind fun ys => ((groups.zip (xs.zip ys)).mapM fun p =>
      if p.1 = 0 then some 0 else grid.cell? p.2.1 p.2.2).bind _) = _
  rw [hread fun ps => (ps.mapM fun p =>
    if p.1 = 0 then some 0 else grid.cell? p.2.1 p.2.2).bind (g.setAll? docs)]
  rw [← Option.bind_assoc, mapM_bind]
  congr 1
  refine mapM_congr fun d _ => ?_
  unfold cellOf?
  cases g.get? d <;> cases x.value? d <;> cases y.value? d <;> rfl

/-- The chunk size of a regroup by a grid does not matter. -/
theorem cellChunks_eq (g : Grouping) (grid : Grid) (x y : ValueTable) {chunk : Nat}
    (hchunk : 0 < chunk) :
    (chunks chunk (List.range g.len)).foldlM (cellChunk? grid x y) g =
      (List.range g.len).foldlM (Grouping.move? (cellOf? grid x y)) g :=
  Grouping.foldlM_chunks_move? (fun _ => True) trivial hchunk (fun _ _ _ _ _ => trivial)
    fun _ _ hc hlt hlen _ => cellChunk?_eq hc (hlen ▸ hlt)

theorem moves_of_cellChunks {grid : Grid} {x y : ValueTable} {chunk : Nat} (hchunk : 0 < chunk)
    (h : (chunks chunk (List.range g.len)).foldlM (cellChunk? grid x y) g = some g') :
    Moves (cellOf? grid x y) (List.range g.len) g g' := by
  rw [cellChunks_eq g grid x y hchunk] at h
  exact Grouping.moves_of_range? h

/-- A grid sends every document outside group 0 to the cell of its own values. The shortcut for
tables whose bounds share an index on both axes does the same. -/
theorem sends_byGrid (hg : g.WellFormed numDocs) (x y : ValueTable) {grid : Grid}
    (hx : grid.x.Proper) (hy : grid.y.Proper) :
    Sends numDocs (cellOf? grid x y) (byGrid feed x y grid) g := by
  refine sends_unlessFilteredOut hg (fun d new h => ?_) fun _ => ?_
  · obtain ⟨vx, vy, -, -, h⟩ := exists_of_cellOf? h
    exact (Option.some.inj h).symm
  refine sends_orRefused_bind hg fun highest hh => ?_
  split
  · rename_i i j hi hj
    -- both values lie between the bounds, so their indexes are those that the bounds share
    refine sends_orBroken_bind fun cell hc => (sends_toOneGroup hg cell).mono fun d old new h => ?_
    obtain ⟨vx, vy, hvx, hvy, h⟩ := exists_of_cellOf? h
    obtain ⟨hxlo, hxhi⟩ := ValueTable.bounds_of_value? hvx
    obtain ⟨hylo, hyhi⟩ := ValueTable.bounds_of_value? hvy
    unfold Grid.cell? at h
    rw [hx.index_eq_of_common? hi hxlo hxhi, hy.index_eq_of_common? hj hylo hyhi, hc] at h
    rw [← h]
    split_ifs <;> rfl
  · refine sends_makeRoom_bind hg (ensures_scratch (sends_rewrite hg
      (fun g' hg' => moves_of_cellChunks (by omega) hg') fun d old new _ h => ?_)
      fun _ => hg.unmoved_roomFor _)
    rw [(grid.maxGroup_ok hh).1]
    exact cellOf?_le_total hx hy h

/-- A grid only goes through where all cells are group ids. -/
theorem ensures_byGrid (hg : g.WellFormed numDocs) (x y : ValueTable) {grid : Grid}
    (hx : grid.x.Proper) (hy : grid.y.Proper) :
    Ensures (byGrid feed x y grid) g
      (fun n g' => (1 < g.numGroups → grid.total ≤ maxId) ∧ Sent numDocs (cellOf? grid x y) g n g')
      (fun _ g' => g.Unmoved numDocs g') := by
  by_cases hfits : 1 < g.numGroups → grid.total ≤ maxId
  · exact Ensures.mono (sends_byGrid hg x y hx hy) fun _ _ h => ⟨hfits, h⟩
  · obtain ⟨hn, hbig⟩ := Classical.not_imp.mp hfits
    refine ensures_unlessFilteredOut (fun hle => absurd hn (Nat.not_lt_of_le hle)) fun _ =>
      ensures_bind (ensures_orRefused (fun highest hh => ?_) fun _ => hg.unmoved)
    exact absurd (grid.maxGroup_ok hh).2 hbig

/-! ### Ranges -/

/-- The new group of a document by a range: its own if its value is kept, else 0. -/
def keptBy? (values : ValueTable) (min max : Int) (negate : Bool) (doc group : Nat) : Option Nat :=
  (values.value? doc).bind fun value =>
    some (if (min ≤ value && value ≤ max) != negate then group else 0)

theorem exists_of_keptBy? {values : ValueTable} {min max : Int} {negate : Bool} {d x y : Nat}
    (h : keptBy? values min max negate d x = some y) : ∃ v, values.value? d = some v ∧
      y = if (min ≤ v && v ≤ max) != negate then x else 0 := by
  obtain ⟨v, hv, h⟩ := Option.bind_eq_some_iff.mp h
  exact ⟨v, hv, (Option.some.inj h).symm⟩

/-- Where the bounds of a table are both in a range, or both on one side of it, a value between them
is in the range just when they are. -/
theorem inside_eq_of_bounds {values : ValueTable} {min max : Int}
    (h : (decide (min ≤ values.low) && decide (values.high ≤ max) ||
      (decide (values.high < min) || decide (max < values.low))) = true) {d : Nat} {v : Int}
    (hv : values.value? d = some v) : (decide (min ≤ v) && decide (v ≤ max)) =
      (decide (min ≤ values.low) && decide (values.high ≤ max)) := by
  obtain ⟨hlo, hhi⟩ := ValueTable.bounds_of_value? hv
  simp only [Bool.or_eq_true, Bool.and_eq_true, decide_eq_true_eq] at h
  rw [Bool.eq_iff_iff]
  simp only [Bool.and_eq_true, decide_eq_true_eq]
  omega

/-- A range keeps every document by its own value. The two shortcuts, for tables with bounds in the
range and for those with bounds on one side of it, do the same. -/
theorem sends_byRange (hg : g.WellFormed numDocs) (values : ValueTable) (min max : Int)
    (negate : Bool) :
    Sends numDocs (keptBy? values min max negate) (byRange feed values min max negate) g := by
  refine sends_unlessFilteredOut hg (fun d y hy => ?_) fun _ => ?_
  · obtain ⟨v, -, rfl⟩ := exists_of_keptBy? hy
    exact ite_self 0
  simp only
  split_ifs with hbounds hdrop
  · refine sends_replace hg fun d x y _ hy => ?_
    obtain ⟨v, hv, rfl⟩ := exists_of_keptBy? hy
    rw [inside_eq_of_bounds hbounds hv, bne, hdrop]
    rfl
  · refine ensures_pure ⟨hg, rfl, fun d x y hx hy => ?_⟩
    obtain ⟨v, hv, rfl⟩ := exists_of_keptBy? hy
    rw [Bool.not_eq_true] at hdrop
    rw [inside_eq_of_bounds hbounds hv, bne, hdrop]
    exact hx
  · refine sends_makeRoom_bind hg (sends_rewrite hg
      (fun g' hg' => Grouping.moves_of_mapGroupsWithValues? hg') fun d x y hx hy => ?_)
    obtain ⟨v, -, rfl⟩ := exists_of_keptBy? hy
    split_ifs
    · exact hg.le_top hx
    · exact Nat.zero_le _

/-! ### When buckets go through -/

/-- A constant grouping of a group that can be counted. -/
theorem concludes_replace_recount {x : Nat} {refused : Error → Grouping → Prop} {broken : Prop}
    (hx : ¬ broken → x < maxId) :
    Concludes (replace x >>= fun _ => recount) g refused broken := by
  refine completes_bind (completes_replace (completes_recount ?_ fun hnone => ?_))
  · exact fun g' hg' => Grouping.numGroups_le_of_recount? hg'
  · by_contra hb
    simp only [Grouping.recount?, if_pos (hx hb)] at hnone
    cases hnone

theorem concludes_toOneBucket (hg : g.Counted numDocs) {bucket total : Nat}
    (hb : bucket ≤ total) (hmax : (g.numGroups - 1) * total ≤ maxId) :
    Concludes (toOneBucket feed bucket total) g (fun e g' => e.IsArgumentOrMemory ∧ g' = g)
      ((g.numGroups - 1) * total = maxId) := by
  unfold toOneBucket
  by_cases h0 : bucket = 0
  · rw [if_pos h0]
    exact concludes_replace (by decide)
  rw [if_neg h0]
  refine completes_bind (completes_grouping ?_)
  cases g with
  | constant x n =>
    replace hmax : x * total ≤ maxId := hmax
    have htop := compose?_eq (Nat.le_refl x) hb hmax
    have hle := composition_le (Nat.le_refl x) hb
    have hlt : x * total ≠ maxId → composition x bucket total < maxId := fun hne => by omega
    refine completes_bind (completes_orBroken (fun composed hc => ?_) fun hnone => ?_)
    · obtain rfl := Option.some.inj (htop.symm.trans hc)
      exact concludes_replace_recount hlt
    · cases htop.symm.trans hnone
  | stored s =>
    replace hmax : (s.numGroups - 1) * total ≤ maxId := hmax
    -- only the largest group is composed before room is made; all others come below it
    have htop := compose?_eq (Nat.le_refl (s.numGroups - 1)) hb hmax
    have hle := composition_le (Nat.le_refl (s.numGroups - 1)) hb
    have hmove : ∀ d x, (Grouping.stored s).get? d = some x →
        compose? x bucket total = some (composition x bucket total) :=
      fun d x hx => compose?_eq (hg.le_top hx) hb hmax
    refine completes_bind (completes_orBroken (fun composed hc => ?_) fun hnone => ?_)
    · obtain rfl := Option.some.inj (htop.symm.trans hc)
      refine completes_bind (completes_makeRoom hg ?_ fun _ => ⟨trivial, rfl⟩)
      refine concludes_moves hg (fun hne => ?_) (Grouping.mapGroups?_eq _ _ _)
        (fun d x y hx hy => ?_) fun _ d _ x hx => ⟨_, hmove d x hx⟩
      · have hne : ¬ (s.numGroups - 1) * total = maxId := hne
        omega
      · obtain rfl := Option.some.inj ((hmove d x hx).symm.trans hy)
        exact composition_mono (hg.le_top hx)
    · cases htop.symm.trans hnone

/-- A value that some document does not have would have to be looked up. -/
theorem concludes_byBuckets (hg : g.Counted numDocs) (values : ValueTable)
    {buckets : IntervalBuckets} (hb : buckets.Proper) :
    Concludes (byBuckets feed values buckets) g (fun e g' => e.IsArgumentOrMemory ∧ g' = g)
      ((g.numGroups - 1) * buckets.total = maxId ∨ ¬ values.Covers numDocs) := by
  refine concludes_unlessFilteredOut hg fun hn => ?_
  refine completes_bind (completes_orRefused (fun highest hh => ?_)
    fun e he => ⟨highestComposed_error he, rfl⟩)
  obtain ⟨rfl, hmax⟩ := highestComposed_ok hh
  have htotal := total_le_maxId hn hmax
  refine completes_bind (completes_orBroken (fun common hcommon => ?_) fun hnone => ?_)
  · cases common with
    | some bucket =>
      exact (concludes_toOneBucket hg (hb.common?_le_total hcommon) hmax).mono
        (fun _ _ h => h) (fun _ _ h => h) .inl
    | none =>
      -- every group and bucket is composed to a group that there is room for
      have hmove : ∀ d x v, g.get? d = some x →
          ∃ y, ((buckets.bucket? v).bind fun bucket => compose? x bucket buckets.total) = some y ∧
            y ≤ (g.numGroups - 1) * buckets.total := by
        intro d x v hx
        obtain ⟨bucket, hbucket⟩ := IntervalBuckets.exists_bucket? htotal v
        have hle := hb.bucket?_le_total hbucket
        exact ⟨_, by rw [hbucket, Option.bind_some, compose?_eq (hg.le_top hx) hle hmax],
          composition_le (hg.le_top hx) hle⟩
      refine completes_bind (completes_makeRoom hg ?_ fun _ => ⟨trivial, rfl⟩)
      refine concludes_moves hg (fun hne => ?_) (Grouping.mapGroupsWithValues?_eq _ _ _ _)
        (fun d x y hx hy => ?_) fun hne d hd x hx => ?_
      · have hne := fun h => hne (.inl h)
        omega
      · obtain ⟨v, -, hy⟩ := Option.bind_eq_some_iff.mp hy
        obtain ⟨z, hz, hle⟩ := hmove d x v hx
        obtain rfl := Option.some.inj (hz.symm.trans hy)
        exact hle
      · have hcovers := Decidable.not_not.mp fun h => hne (.inr h)
        obtain ⟨v, hv⟩ := hcovers.exists_value? hd
        obtain ⟨y, hy, -⟩ := hmove d x v hx
        refine ⟨y, ?_⟩
        rw [hv]
        exact hy
  · obtain ⟨o, ho⟩ := IntervalBuckets.exists_common? htotal values.low values.high
    rw [hnone] at ho
    cases ho

/-! ### When grids and ranges go through -/

theorem concludes_toOneGroup (hg : g.Counted numDocs) (x : Nat) :
    Concludes (toOneGroup feed x) g (fun e g' => e.IsArgumentOrMemory ∧ g' = g) (maxId ≤ x) := by
  refine completes_bind (completes_grouping ?_)
  cases g with
  | constant old n =>
    by_cases h0 : old ≠ 0
    · simp only [if_pos h0]
      exact concludes_replace_recount Nat.lt_of_not_le
    · simp only [if_neg h0]
      have hold : old < maxId := hg.numGroups_le
      refine completes_recount (fun g' hg' => Grouping.numGroups_le_of_recount? hg') fun hnone => ?_
      simp only [Grouping.recount?, if_pos hold] at hnone
      cases hnone
  | stored s =>
    refine completes_bind (completes_makeRoom hg ?_ fun _ => ⟨trivial, rfl⟩)
    refine concludes_moves hg Nat.lt_of_not_le (Grouping.mapGroups?_eq _ _ _)
      (fun d old y _ hy => ?_) fun _ _ _ _ _ => ⟨_, rfl⟩
    cases hy
    split_ifs <;> omega

theorem concludes_byGrid (hg : g.Counted numDocs) (x y : ValueTable) {grid : Grid}
    (hx : grid.x.Proper) (hy : grid.y.Proper) :
    Concludes (byGrid feed x y grid) g (fun e g' => e.IsArgumentOrMemory ∧ g.Grown g')
      (grid.total = maxId ∨ ¬ x.Covers numDocs ∨ ¬ y.Covers numDocs) := by
  refine concludes_unlessFilteredOut hg fun _ => ?_
  refine completes_bind (completes_orRefused (fun highest hh => ?_)
    fun e he => ⟨Grid.maxGroup_error he, g.grown_refl⟩)
  obtain ⟨rfl, hmax⟩ := Grid.maxGroup_ok hh
  split
  · rename_i i j hi hj
    obtain rfl := Axis.index_of_common? hi
    obtain rfl := Axis.index_of_common? hj
    have hle := Grid.cell_le_total (hx.index_lt x.low) (hy.index_lt y.low)
    refine completes_bind (completes_orBroken (fun cell hcell => ?_) fun hnone => ?_)
    · obtain ⟨-, rfl⟩ := asId?_eq_some.mp hcell
      refine (concludes_toOneGroup hg _).mono (fun _ _ h => h) (fun e g' he => ?_) fun hb => ?_
      · exact ⟨he.1, .inl he.2⟩
      · exact .inl (by omega)
    · unfold Grid.cellAt? at hnone
      rw [asId?_of_le (Nat.le_trans hle hmax)] at hnone
      cases hnone
  · refine completes_bind (completes_makeRoom hg ?_ fun _ => ⟨trivial, g.grown_refl⟩)
    refine completes_scratch ?_ fun _ => ⟨trivial, g.grown_roomFor _⟩
    refine concludes_moves hg (fun hb => ?_) (cellChunks_eq _ _ _ _ (by omega))
      (fun _ _ _ _ hz => cellOf?_le_total hx hy hz) fun hb d hd group _ => ?_
    · have hne := fun h => hb (.inl h)
      omega
    · obtain ⟨-, hb⟩ := not_or.mp hb
      obtain ⟨hcx, hcy⟩ := not_or.mp hb
      obtain ⟨vx, hvx⟩ := (Decidable.not_not.mp hcx).exists_value? hd
      obtain ⟨vy, hvy⟩ := (Decidable.not_not.mp hcy).exists_value? hd
      obtain ⟨c, hc⟩ := Grid.exists_cell? hx hy hmax vx vy
      unfold cellOf?
      rw [hvx, Option.bind_some, hvy, Option.bind_some]
      by_cases h0 : group = 0
      · exact ⟨0, if_pos h0⟩
      · exact ⟨c, by rw [if_neg h0, hc]⟩

theorem concludes_byRange (hg : g.Counted numDocs) (values : ValueTable) (min max : Int)
    (negate : Bool) : Concludes (byRange feed values min max negate) g (fun _ g' => g' = g)
      (¬ values.Covers numDocs) := by
  have hn := hg.numGroups_le
  refine concludes_unlessFilteredOut hg fun hmore => ?_
  simp only
  split_ifs
  · exact concludes_replace (by decide)
  · exact completes_pure hn
  · refine completes_bind (completes_makeRoom hg ?_ fun _ => rfl)
    refine concludes_moves hg (fun _ => by omega) (Grouping.mapGroupsWithValues?_eq _ _ _ _)
      (fun d x y hx hy => ?_) fun hcovers d hd x _ => ?_
    · obtain ⟨v, -, hy⟩ := Option.bind_eq_some_iff.mp hy
      cases hy
      split_ifs
      · exact hg.le_top hx
      · exact Nat.zero_le _
    · obtain ⟨v, hv⟩ := (Decidable.not_not.mp hcovers).exists_value? hd
      exact ⟨_, by rw [hv, Option.bind_some]⟩

end Cohort.Regroup
