import Cohort.Proofs.Loops
import Cohort.Shard.Values

/-!
# Value tables — the bounds of a table, and its values as a list

The bounds hold every value of a table. They need not be values of documents: a table that is longer
than the shard has values of its own at the end.
-/

namespace Cohort.ValueTable

variable {t : ValueTable} {values : Array Int} {d : Nat} {v : Int}

/-! ### Bounds -/

theorem min?_eq_low (h : values.toList ≠ []) : values.toList.min? = some (dense values).low := by
  show _ = some (values.toList.min?.getD 0)
  cases hmin : values.toList.min? with
  | none => exact absurd (List.min?_eq_none_iff.mp hmin) h
  | some a => rfl

theorem max?_eq_high (h : values.toList ≠ []) : values.toList.max? = some (dense values).high := by
  show _ = some (values.toList.max?.getD 0)
  cases hmax : values.toList.max? with
  | none => exact absurd (List.max?_eq_none_iff.mp hmax) h
  | some a => rfl

theorem bounds_of_value? (h : t.value? d = some v) : t.low ≤ v ∧ v ≤ t.high := by
  cases t with
  | constant w =>
    cases h
    exact ⟨Int.le_refl v, Int.le_refl v⟩
  | dense values =>
    have hv : v ∈ values.toList := Array.mem_toList_iff.mpr (Array.mem_of_getElem? h)
    have hne := List.ne_nil_of_mem hv
    exact ⟨(List.min?_eq_some_iff.mp (min?_eq_low hne)).2 v hv,
      (List.max?_eq_some_iff.mp (max?_eq_high hne)).2 v hv⟩

/-- A table that is written out has documents of the lowest and of the highest value. -/
theorem bounds_attained (h : 0 < values.size) :
    (∃ d < values.size, (dense values).value? d = some (dense values).low) ∧
      ∃ d < values.size, (dense values).value? d = some (dense values).high := by
  have hdoc : ∀ a ∈ values.toList, ∃ d < values.size, (dense values).value? d = some a := by
    intro a ha
    obtain ⟨d, hd, rfl⟩ := Array.mem_iff_getElem.mp (Array.mem_toList_iff.mp ha)
    exact ⟨d, hd, Array.getElem?_eq_getElem hd⟩
  have hne : values.toList ≠ [] := by
    intro hnil
    rw [← Array.length_toList, hnil] at h
    exact Nat.lt_irrefl 0 h
  exact ⟨hdoc _ (List.min?_eq_some_iff.mp (min?_eq_low hne)).1,
    hdoc _ (List.max?_eq_some_iff.mp (max?_eq_high hne)).1⟩

/-! ### The values of the first documents -/

section Range

variable {n : Nat} {vs : List Int}

theorem length_of_valuesOf? (h : t.valuesOf? (List.range n) = some vs) : vs.length = n := by
  have hlen := congrArg List.length (mapM_eq_some_iff.mp h)
  rw [List.length_map, List.length_map, List.length_range] at hlen
  exact hlen.symm

theorem getElem?_of_valuesOf? (h : t.valuesOf? (List.range n) = some vs) (hd : d < n) :
    vs[d]? = t.value? d := by
  have hget := congrArg (·[d]?) (mapM_eq_some_iff.mp h)
  simp only [List.getElem?_map, List.getElem?_range hd, Option.map_some] at hget
  cases hv : vs[d]? with
  | none =>
    rw [hv] at hget
    cases hget
  | some v =>
    rw [hv] at hget
    exact (Option.some.inj hget).symm

end Range

end Cohort.ValueTable
