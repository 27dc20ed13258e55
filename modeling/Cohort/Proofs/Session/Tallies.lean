import Cohort.Proofs.Grouping.Docwise
import Cohort.Proofs.Shard
import Cohort.Session.StatStack

/-!
# Tallies — sums over groups, document by document

The sums of a stat read the groups of a chunk of documents at a time. They are a loop over the
documents, whatever the chunk size, and go through where the documents have groups and values.
-/

namespace Cohort

/-- A loop over documents and the groups that were read for them. -/
theorem Grouping.foldlM_groupsOf? {σ : Type} {g : Grouping} {docs : List Nat}
    (hlt : ∀ d ∈ docs, d < g.len) (f : σ → Nat → Nat → Option σ) (s : σ) :
    ((g.groupsOf? docs).bind fun groups => (docs.zip groups).foldlM (fun t p => f t p.1 p.2) s) =
      docs.foldlM (fun t d => (g.get? d).bind (f t d)) s := by
  obtain ⟨groups, hgroups⟩ := exists_mapM fun d hd => get?_of_lt_len (hlt d hd)
  rw [groupsOf?_eq_mapM hlt, hgroups, Option.bind_some]
  refine foldlM_zip hgroups (fun d x hx t => ?_) s
  rw [hx, Option.bind_some]

/-! ### Sums -/

section Sums

variable {g : Grouping} {values : ValueTable}

/-- Adds a value to the sum of a group; group 0 has none. -/
def addToSum (sums : Array Int) (p : Nat × Int) : Array Int :=
  if p.1 = 0 then sums else sums.modify p.1 fun sum => wrap64 (sum + p.2)

/-- The sums are taken document by document, whatever the chunk size. -/
theorem sumByGroup?_eq (g : Grouping) (chunk : Nat) (values : ValueTable) :
    sumByGroup? g chunk values = ((List.range g.len).foldlM (fun sums d => (g.get? d).bind
      fun x => (values.value? d).map fun v => addToSum sums (x, v))
        (Array.replicate g.numGroups 0)).map Array.toList := by
  unfold sumByGroup?
  refine congrArg _ (Eq.trans (foldlM_ext (fun c hc sums => ?_) _)
    (foldlM_chunks (n := max 1 chunk) (by omega) _ _ _))
  have hlt : ∀ d ∈ c, d < g.len := fun d hd => List.mem_range.mp (mem_of_mem_chunks hc hd)
  show ((g.groupsOf? c).bind fun groups => (c.mapM values.value?).bind fun vs =>
    some ((groups.zip vs).foldl addToSum sums)) = _
  rw [Grouping.groupsOf?_eq_mapM hlt, mapM_bind_zip c fun ps => some (ps.foldl addToSum sums)]
  rw [mapM_bind_foldl]
  refine foldlM_ext (fun d _ t => ?_) sums
  cases g.get? d <;> cases values.value? d <;> rfl

/-- Where all documents have values, the loop does not fail. -/
theorem sumByGroup?_eq_foldl (chunk : Nat) (h : values.Covers g.len) :
    sumByGroup? g chunk values = some ((List.range g.len).foldl
      (fun sums d => addToSum sums (g.groupOf d, values.valueOf d))
        (Array.replicate g.numGroups 0)).toList := by
  have hstep : ∀ d ∈ List.range g.len, ∀ sums : Array Int,
      ((g.get? d).bind fun x => (values.value? d).map fun v => addToSum sums (x, v)) =
        some (addToSum sums (g.groupOf d, values.valueOf d)) := by
    intro d hd sums
    have hd := List.mem_range.mp hd
    rw [Grouping.get?_eq_groupOf hd, h.value?_eq_valueOf hd]
    rfl
  rw [sumByGroup?_eq, foldlM_ext hstep]
  exact congrArg (Option.map Array.toList) (List.foldlM_pure ..)

theorem exists_sumByGroup? (chunk : Nat) (h : values.Covers g.len) :
    ∃ sums, sumByGroup? g chunk values = some sums :=
  ⟨_, sumByGroup?_eq_foldl chunk h⟩

end Sums

end Cohort
