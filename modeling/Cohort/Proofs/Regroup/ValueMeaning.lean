import Cohort.Proofs.Meaning
import Cohort.Proofs.Regroup.Values

/-!
# Value meaning — buckets that go through do what they mean

What buckets mean is told with sums that must be 64-bit numbers and with a division that rounds
towards zero. Buckets and composed groups that are group ids are far from that bound, and nothing
below a range is divided, so both ways give the same numbers.
-/

namespace Cohort.Meaning

variable {b : IntervalBuckets} {n : Nat}

theorem composed?_eq (group bucket total : Nat) :
    composed? group bucket total = compose? group bucket total := by
  unfold composed? compose? word?
  simp only
  split_ifs <;> rfl

theorem word?_eq (h : n ≤ maxId) : word? n = asId? n := by
  have hbound : maxId < wordBound := by decide
  rw [asId?_of_le h]
  exact if_pos (Nat.lt_of_le_of_lt h hbound)

theorem emod_wordBound_eq {a : Int} (h0 : 0 ≤ a) (h : a.toNat ≤ maxId) : a % wordBound = a := by
  have hbound : maxId < wordBound := by decide
  exact Int.emod_eq_of_lt h0 (by omega)

theorem bucketCount_eq (hb : b.Proper) (h : b.count ≤ maxId) :
    bucketCount b.min b.max b.width = b.count := by
  have hrange := hb.range
  have h0 : 0 ≤ (b.max - 1 - b.min) / b.width :=
    Int.ediv_nonneg (by omega) (Int.le_of_lt hb.width_pos)
  rw [hb.count_eq] at h ⊢
  unfold bucketCount
  rw [Int.tdiv_eq_ediv_of_nonneg (by omega), emod_wordBound_eq (by omega) h]
  rfl

theorem bucket?_eq (hb : b.Proper) (h : b.total ≤ maxId) (v : Int) :
    bucket? b.min b.max b.width b.noGutters v = b.bucket? v := by
  have hle := fun hlo hhi => hb.inside_le_total (v := v) hlo hhi
  unfold IntervalBuckets.total at h hle
  unfold bucket? IntervalBuckets.bucket? IntervalBuckets.below? IntervalBuckets.above?
  rw [bucketCount_eq hb (by split_ifs at h <;> omega)]
  by_cases hlo : v < b.min
  · rw [if_pos hlo, if_pos hlo]
    split_ifs at h ⊢ with hgutters
    · rfl
    · exact word?_eq (by omega)
  rw [if_neg hlo, if_neg hlo]
  by_cases hhi : b.max ≤ v
  · rw [if_pos hhi, if_pos hhi]
    split_ifs at h ⊢ with hgutters
    · rfl
    · exact word?_eq h
  rw [if_neg hhi, if_neg hhi]
  have hinside : b.inside v ≤ maxId := Nat.le_trans (hle (by omega) (by omega)) h
  have h0 : 0 ≤ (v - b.min) / b.width := Int.ediv_nonneg (by omega) (Int.le_of_lt hb.width_pos)
  rw [Int.tdiv_eq_ediv_of_nonneg (by omega),
    emod_wordBound_eq h0 (Nat.le_of_succ_le hinside)]
  exact (word?_eq hinside).trans (asId?_of_le hinside)

/-- While there is a group left to split, buckets judge every document by its group and value. -/
theorem buckets?_of_many (hb : b.Proper) (h : b.total ≤ maxId) {groups : List Nat}
    (hn : 1 < numGroups groups) (vs : List Int) :
    buckets? groups vs b.min b.max b.width b.noGutters =
      (groups.zip vs).mapM fun p => (b.bucket? p.2).bind fun k => compose? p.1 k b.total := by
  have hwidth : b.width ≠ 0 := Int.ne_of_gt hb.width_pos
  have hbody : (fun p : Nat × Int => (bucket? b.min b.max b.width b.noGutters p.2).bind fun k =>
      composed? p.1 k b.total) = fun p => (b.bucket? p.2).bind fun k => compose? p.1 k b.total := by
    funext p
    rw [bucket?_eq hb h]
    exact congrArg _ (funext fun k => composed?_eq p.1 k b.total)
  unfold buckets?
  rw [if_neg (Nat.not_le_of_lt hn), if_neg hwidth, ← hbody]
  unfold IntervalBuckets.total at h ⊢
  simp only
  rw [bucketCount_eq hb (by split_ifs at h <;> omega)]
  split_ifs at h ⊢ with hgutters
  · rfl
  · rw [word?_eq h, asId?_of_le h]
    rfl

/-! ### Groupings -/

variable {g g' : Grouping} {values : ValueTable} {numDocs : Nat} {vs : List Int}

/-- The number of groups that is reported is one more than the largest group. -/
theorem numGroups_of_sent {f : Nat → Nat → Option Nat} (hs : Pass.Sent numDocs f g n g')
    (hpos : 0 < numDocs) : n = numGroups g'.toList := by
  rw [numGroups_toList hs.wellFormed hpos, hs.numGroups_eq]

/-- What a grouping follows, told of a value in the list of values. -/
theorem get?_of_sent (hs : Pass.Sent numDocs (Regroup.bucketOf? b values) g n g')
    (hvs : values.valuesOf? (List.range numDocs) = some vs) {d x y : Nat} {v : Int}
    (hx : g.get? d = some x) (hv : vs[d]? = some v)
    (hy : (if x = 0 then some 0 else (b.bucket? v).bind fun k => compose? x k b.total) = some y) :
    g'.get? d = some y := by
  have hd : d < numDocs :=
    ValueTable.length_of_valuesOf? hvs ▸ (List.getElem?_eq_some_iff.mp hv).1
  rw [ValueTable.getElem?_of_valuesOf? hvs hd] at hv
  exact hs.follows d x y hx (Option.bind_eq_some_iff.mpr ⟨v, hv, hy⟩)

/-- Document by document, a grouping follows the buckets. -/
theorem buckets?_eq (hg : g.WellFormed numDocs) (hb : b.Proper)
    (hfits : 1 < g.numGroups → (g.numGroups - 1) * b.total ≤ maxId)
    (hvs : values.valuesOf? (List.range numDocs) = some vs)
    (hs : Pass.Sent numDocs (Regroup.bucketOf? b values) g n g') :
    buckets? g.toList vs b.min b.max b.width b.noGutters = some g'.toList := by
  have hlen : g'.len = g.len := hs.wellFormed.len_eq.trans hg.len_eq.symm
  have hvalues : vs.length = g.len :=
    (ValueTable.length_of_valuesOf? hvs).trans hg.len_eq.symm
  -- without documents, and without a group to move, nothing is composed
  rcases Nat.eq_zero_or_pos numDocs with h0 | hpos
  · have hempty : g.len = 0 := hg.len_eq.trans h0
    rw [← toList_eq_of_empty hlen hempty]
    exact if_pos (numGroups_le_one_of_empty hempty)
  by_cases hn : g.numGroups ≤ 1
  · have hspares : g.Spares g' := by
      intro d hd
      have hlt : d < vs.length := hvalues ▸ Grouping.lt_len_of_get? hd
      exact get?_of_sent hs hvs hd (List.getElem?_eq_getElem hlt) (if_pos rfl)
    rw [← toList_eq_of_spares hg hn hlen hspares]
    exact if_pos (numGroups_le_one hg hn)
  have hmax := hfits (by omega)
  have htotal : b.total ≤ maxId := total_le_maxId (by omega) hmax
  rw [buckets?_of_many hb htotal (by rw [numGroups_toList hg hpos]; omega)]
  refine mapM_eq_toList ?_ ?_
  · rw [List.length_zip, Grouping.length_toList, hvalues, hlen, Nat.min_self]
  rintro d ⟨x, v⟩ ha
  obtain ⟨hx, hv⟩ := List.getElem?_zip_eq_some.mp ha
  rw [Grouping.getElem?_toList] at hx
  obtain ⟨bucket, hbucket⟩ := IntervalBuckets.exists_bucket? htotal v
  have hcompose := compose?_eq (hg.le_top hx) (hb.bucket?_le_total hbucket) hmax
  simp only [hbucket, Option.bind_some, hcompose]
  refine get?_of_sent hs hvs hx hv ?_
  rw [hbucket, Option.bind_some, hcompose]
  split_ifs with h0
  · subst h0
    rfl
  · rfl

end Cohort.Meaning
