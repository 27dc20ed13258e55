import Cohort.Proofs.Regroup.ValueMeaning
import Cohort.Proofs.Session.Guarantees

/-!
# Outcomes of values — where buckets, grids and ranges put every document

Whichever shortcut a regroup by values takes, every document ends up where its own group and its own
values say. The bounds of a table only decide how much work that is.
-/

namespace Cohort

/-! ### Axes -/

namespace Session.AxisRange

/-- Number of indexes: one for each interval of the range, and one on either side of it. -/
def buckets (a : AxisRange) : Nat := ((a.max - 1 - a.min) / a.width).toNat + 3

/-- The index of a value: 0 below the range, the last one from its end on, and in between the number
of its interval. -/
def index (a : AxisRange) (value : Int) : Nat :=
  if value < a.min then 0
  else if a.max ≤ value then a.buckets - 1
  else ((value - a.min) / a.width).toNat + 1

variable {a : AxisRange} {name : String} {axis : Axis}

theorem count_of_make (h : Axis.make name a.min a.max a.width = .ok axis) :
    axis.count = a.buckets := by
  obtain ⟨hwidth, hrange, rfl⟩ := Axis.make_ok h
  have h0 : 0 ≤ (a.max - 1 - a.min) / a.width := Int.ediv_nonneg (by omega) (by omega)
  show intervalCount a.min a.max a.width + 2 = _
  unfold intervalCount buckets
  omega

theorem index_of_make (h : Axis.make name a.min a.max a.width = .ok axis) (value : Int) :
    axis.index value = a.index value := by
  unfold Axis.index index
  rw [count_of_make h]
  obtain ⟨-, -, rfl⟩ := Axis.make_ok h
  rfl

end Session.AxisRange

namespace Live

variable {shard : Shard} {config : Config} {x : Live} {s' : Session} {n : Nat}

/-! ### Buckets -/

/-- Buckets of a stat that go through do what they mean. -/
theorem Reachable.metric_ok (h : Reachable shard config x) {stat : Nat} {values : ValueTable}
    {vs : List Int} {min max width : Int} {noGutters : Bool}
    (hstat : x.session.stats.get stat = .ok values)
    (hvs : values.valuesOf? (List.range shard.numDocs) = some vs)
    (hr : Session.metric stat min max width noGutters x.session = .ok n s') :
    Meaning.buckets? x.session.grouping.toList vs min max width noGutters =
      some s'.grouping.toList ∧
    (0 < shard.numDocs → n = Meaning.numGroups s'.grouping.toList) := by
  obtain ⟨-, values', buckets, hstat', hmake, hfits, hsent⟩ :=
    (Session.serves_metric h.sound stat min max width noGutters).ok_of hr
  obtain rfl : values = values' := Except.ok.inj (hstat.symm.trans hstat')
  have hproper := IntervalBuckets.proper_of_make hmake
  obtain ⟨-, -, rfl⟩ := IntervalBuckets.make_ok hmake
  exact ⟨Meaning.buckets?_eq h.sound.wellFormed hproper hfits hvs hsent,
    Meaning.numGroups_of_sent hsent⟩

/-- Buckets of a stat split every group by the values of the documents and by nothing else: the new
groups are those that the buckets mean, and the number of groups that is reported is one more than
the largest. So a table with other bounds that has the same values for the documents leads to the
same groups and to the same number, though it may rule out a shortcut. -/
theorem Reachable.metric_meaning (h : Reachable shard config x) {stat : Nat} {values : ValueTable}
    {vs : List Int} {min max width : Int} {noGutters : Bool}
    (hstat : x.session.stats.get stat = .ok values)
    (hvs : values.valuesOf? (List.range shard.numDocs) = some vs)
    (hr : Session.metric stat min max width noGutters x.session = .ok n s') :
    Meaning.buckets? x.session.grouping.toList vs min max width noGutters =
      some s'.grouping.toList ∧
    (0 < shard.numDocs → n = Meaning.numGroups s'.grouping.toList) ∧
    ∀ (config' : Config) (y : Live) (stat' : Nat) (values' : ValueTable) (m : Nat) (t : Session),
      Reachable shard config' y → y.session.grouping.toList = x.session.grouping.toList →
      y.session.stats.get stat' = .ok values' →
      values'.valuesOf? (List.range shard.numDocs) = some vs →
      Session.metric stat' min max width noGutters y.session = .ok m t →
      t.grouping.toList = s'.grouping.toList ∧ (0 < shard.numDocs → m = n) := by
  obtain ⟨hmeaning, hcount⟩ := h.metric_ok hstat hvs hr
  refine ⟨hmeaning, hcount, ?_⟩
  intro config' y stat' values' m t hy hgroups hstat' hvs' hr'
  obtain ⟨hmeaning', hcount'⟩ := hy.metric_ok hstat' hvs' hr'
  rw [hgroups] at hmeaning'
  have hsame : t.grouping.toList = s'.grouping.toList :=
    Option.some.inj (hmeaning'.symm.trans hmeaning)
  refine ⟨hsame, fun hpos => ?_⟩
  rw [hcount hpos, hcount' hpos, hsame]

/-- The same level for all three documents, and once more in a table whose bounds are further apart;
and a table of three distances. -/
def rated : Session :=
  { divided with
    ledger := ⟨⟨1000, 91, 150⟩, none⟩
    stats := ⟨#[⟨"level", .constant 15⟩, ⟨"spread", .dense #[15, 15, 15, 40]⟩,
      ⟨"distance", .dense #[5, 35, 22]⟩], 64⟩ }

theorem reachable_rated : Reachable ages narrow ⟨rated, 0⟩ := by
  have h1 : Reachable ages narrow ⟨_, 0⟩ := .step reachable_divided
    (.answered (r := .pushValues "level" (.constant 15)) rfl)
  have h2 : Reachable ages narrow ⟨_, 0⟩ := .step h1
    (.answered (r := .pushValues "spread" (.dense #[15, 15, 15, 40])) rfl)
  exact .step h2 (.answered (r := .pushValues "distance" (.dense #[5, 35, 22])) rfl)

/-- Only the first stat allows for the shortcut. -/
theorem Reachable.metric_meaning_rated : ∃ n s' m t,
    Session.metric 0 10 30 10 false rated = .ok n s' ∧
    Session.metric 1 10 30 10 false rated = .ok m t ∧
    Meaning.buckets? [0, 2, 2] [15, 15, 15] 10 30 10 false = some s'.grouping.toList ∧
    n = Meaning.numGroups s'.grouping.toList ∧
    t.grouping.toList = s'.grouping.toList ∧ m = n := by
  obtain ⟨n, s', hr⟩ : ∃ n s', Session.metric 0 10 30 10 false rated = .ok n s' := ⟨_, _, by cbv⟩
  obtain ⟨m, t, hr'⟩ : ∃ m t, Session.metric 1 10 30 10 false rated = .ok m t := ⟨_, _, by cbv⟩
  obtain ⟨hmeaning, hcount, hother⟩ := Reachable.metric_meaning reachable_rated
    (show rated.stats.get 0 = .ok (.constant 15) from rfl)
    (show ValueTable.valuesOf? _ (List.range 3) = some [15, 15, 15] from rfl) hr
  obtain ⟨hsame, heq⟩ := hother narrow ⟨rated, 0⟩ 1 _ m t reachable_rated rfl rfl rfl hr'
  exact ⟨n, s', m, t, hr, hr', hmeaning, hcount (by decide), hsame, heq (by decide)⟩

/-! ### Grids -/

/-- A grid that goes through moves every document outside group 0, whatever group it was in, to the
cell of its own two values, and leaves group 0 alone; the number of groups that is reported is one
more than the largest. -/
theorem Reachable.grid_meaning (h : Reachable shard config x) {a b : Session.AxisRange}
    {xs ys : ValueTable} (hxs : x.session.stats.get a.stat = .ok xs)
    (hys : x.session.stats.get b.stat = .ok ys) (hx : xs.Covers shard.numDocs)
    (hy : ys.Covers shard.numDocs) (hr : Session.metric2d a b x.session = .ok n s') :
    (∀ d < shard.numDocs, ∃ group u v, x.session.grouping.get? d = some group ∧
      xs.value? d = some u ∧ ys.value? d = some v ∧
      s'.grouping.get? d =
        some (if group = 0 then 0 else b.index v * a.buckets + a.index u + 1)) ∧
    (0 < shard.numDocs → n = Meaning.numGroups s'.grouping.toList) := by
  obtain ⟨-, xs', ys', i, j, hxs', hys', hi, hj, hfits, hsent⟩ :=
    (Session.serves_metric2d h.sound a b).ok_of hr
  obtain rfl : xs = xs' := Except.ok.inj (hxs.symm.trans hxs')
  obtain rfl : ys = ys' := Except.ok.inj (hys.symm.trans hys')
  have hg := h.sound.wellFormed
  refine ⟨fun d hd => ?_, Meaning.numGroups_of_sent hsent⟩
  obtain ⟨group, hgroup⟩ := Grouping.get?_of_lt_len (hg.len_eq.symm ▸ hd)
  obtain ⟨u, hu⟩ := hx.exists_value? hd
  obtain ⟨v, hv⟩ := hy.exists_value? hd
  refine ⟨group, u, v, hgroup, hu, hv, hsent.follows d group _ hgroup ?_⟩
  refine Option.bind_eq_some_iff.mpr ⟨u, hu, Option.bind_eq_some_iff.mpr ⟨v, hv, ?_⟩⟩
  by_cases h0 : group = 0
  · rw [if_pos h0, if_pos h0]
  · -- with this document there was a group to move, so the number of cells was checked
    have hlt := hg.lt_numGroups d group hgroup
    obtain ⟨cell, hcell⟩ := Grid.exists_cell? (g := ⟨i, j⟩) (Axis.proper_of_make hi)
      (Axis.proper_of_make hj) (hfits (show 1 < x.session.grouping.numGroups by omega)) u v
    rw [if_neg h0, if_neg h0, hcell, ← (asId?_eq_some.mp hcell).2,
      Session.AxisRange.index_of_make hi, Session.AxisRange.index_of_make hj]
    show some (_ * i.count + _ + 1) = _
    rw [Session.AxisRange.count_of_make hi]

/-- The second document has a distance above the range and a level inside; the first stays out. -/
theorem Reachable.grid_meaning_rated : ∃ n s',
    Session.metric2d ⟨2, 10, 30, 10⟩ ⟨0, 10, 30, 10⟩ rated = .ok n s' ∧
    s'.grouping.get? 0 = some 0 ∧ s'.grouping.get? 1 = some 8 ∧
    n = Meaning.numGroups s'.grouping.toList := by
  obtain ⟨n, s', hr⟩ : ∃ n s', Session.metric2d ⟨2, 10, 30, 10⟩ ⟨0, 10, 30, 10⟩ rated = .ok n s' :=
    ⟨_, _, by cbv⟩
  obtain ⟨hcell, hcount⟩ := Reachable.grid_meaning reachable_rated
    (show rated.stats.get 2 = .ok (.dense #[5, 35, 22]) from rfl)
    (show rated.stats.get 0 = .ok (.constant 15) from rfl) (by decide) (by decide) hr
  obtain ⟨_, _, _, hgroup, hu, hv, hfirst⟩ := hcell 0 (by decide)
  cases hgroup
  obtain ⟨_, _, _, hgroup, hu, hv, hsecond⟩ := hcell 1 (by decide)
  cases hgroup
  cases hu
  cases hv
  exact ⟨n, s', hr, hfirst, hsecond, hcount (by decide)⟩

/-! ### Ranges -/

/-- A range that goes through leaves every document in its group if its own value is inside the
range, or outside it where the range is negated, and moves all others to group 0; the number of
groups that is reported is one more than the largest that remains. -/
theorem Reachable.filter_meaning (h : Reachable shard config x) {stat : Nat} {values : ValueTable}
    {min max : Int} {negate : Bool} (hstat : x.session.stats.get stat = .ok values)
    (hcovers : values.Covers shard.numDocs)
    (hr : Session.metricFilter stat min max negate x.session = .ok n s') :
    (∀ d < shard.numDocs, ∃ group v, x.session.grouping.get? d = some group ∧
      values.value? d = some v ∧
      s'.grouping.get? d = some (if decide (min ≤ v ∧ v ≤ max) ≠ negate then group else 0)) ∧
    (0 < shard.numDocs → n = Meaning.numGroups s'.grouping.toList) := by
  obtain ⟨-, values', hstat', hsent⟩ :=
    (Session.serves_metricFilter h.sound stat min max negate).ok_of hr
  obtain rfl : values = values' := Except.ok.inj (hstat.symm.trans hstat')
  have hg := h.sound.wellFormed
  refine ⟨fun d hd => ?_, Meaning.numGroups_of_sent hsent⟩
  obtain ⟨group, hgroup⟩ := Grouping.get?_of_lt_len (hg.len_eq.symm ▸ hd)
  obtain ⟨v, hv⟩ := hcovers.exists_value? hd
  refine ⟨group, v, hgroup, hv, hsent.follows d group _ hgroup ?_⟩
  refine Option.bind_eq_some_iff.mpr ⟨v, hv, congrArg some ?_⟩
  simp only [bne_iff_ne, Bool.decide_and]

/-- The second document lies outside a range that the third lies in; in a range without numbers
there is nothing, and all documents stay. -/
theorem Reachable.filter_meaning_rated : ∃ n s' m t,
    Session.metricFilter 2 10 30 true rated = .ok n s' ∧
    s'.grouping.get? 1 = some 2 ∧ s'.grouping.get? 2 = some 0 ∧
    n = Meaning.numGroups s'.grouping.toList ∧
    Session.metricFilter 0 30 10 true rated = .ok m t ∧ t.grouping.get? 2 = some 2 := by
  obtain ⟨n, s', hr⟩ : ∃ n s', Session.metricFilter 2 10 30 true rated = .ok n s' :=
    ⟨_, _, by cbv⟩
  obtain ⟨m, t, hr'⟩ : ∃ m t, Session.metricFilter 0 30 10 true rated = .ok m t := ⟨_, _, by cbv⟩
  obtain ⟨hkept, hcount⟩ := Reachable.filter_meaning reachable_rated
    (show rated.stats.get 2 = .ok (.dense #[5, 35, 22]) from rfl) (by decide) hr
  obtain ⟨hall, -⟩ := Reachable.filter_meaning reachable_rated
    (show rated.stats.get 0 = .ok (.constant 15) from rfl) (by decide) hr'
  obtain ⟨_, _, hgroup, hv, hsecond⟩ := hkept 1 (by decide)
  cases hgroup
  cases hv
  obtain ⟨_, _, hgroup, hv, hthird⟩ := hkept 2 (by decide)
  cases hgroup
  cases hv
  obtain ⟨_, _, hgroup, hv, hsame⟩ := hall 2 (by decide)
  cases hgroup
  cases hv
  exact ⟨n, s', m, t, hr, hsecond, hthird, hcount (by decide), hr', hsame⟩

end Live

end Cohort
