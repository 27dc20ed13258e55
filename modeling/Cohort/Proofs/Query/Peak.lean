import Cohort.Proofs.Memory.Peak
import Cohort.Proofs.Query.Meaning

/-!
# Peaks of searches — one set per level that is left to join

A search holds the set of a connective while it works out the parts one after the other, each of
whose sets is given back before the next one is made; a complement is made in place. So it needs as
many sets as the query is high, however wide it is.
-/

namespace Cohort.Query

open Memory Memory.Charge

variable {shard : Shard}

mutual

/-- How many connectives with parts of their own, and a test, lie below one another. -/
def height : Query → Nat
  | .and parts => 1 + tallest parts
  | .or parts => 1 + tallest parts
  | .not part => part.height
  | .term .. => 1
  | .intRange .. => 1
  | .stringRange .. => 1

/-- The largest height, or 0 where there are no queries. -/
def tallest : List Query → Nat
  | [] => 0
  | part :: parts => max part.height (tallest parts)

end

/-! ### What a search costs -/

/-- A set is held on top of the sets that are worked out below it. -/
theorem costs_level {body : Unit → Charge DocSet} {k : Nat}
    (h : Costs (body ()) 0 (k * DocSet.bytesFor shard.numDocs)) :
    Costs (holding (DocSet.bytesFor shard.numDocs) body) (DocSet.bytesFor shard.numDocs)
      ((1 + k) * DocSet.bytesFor shard.numDocs) := by
  rw [Nat.add_mul, Nat.one_mul]
  exact costs_holding h

theorem costs_leaf (q : Query) :
    Costs (holding (DocSet.bytesFor shard.numDocs) fun _ =>
        orBroken ((postingLists shard q).foldlM DocSet.mark? (DocSet.empty shard.numDocs)))
      (DocSet.bytesFor shard.numDocs) ((1 + 0) * DocSet.bytesFor shard.numDocs) := by
  refine costs_level ?_
  rw [Nat.zero_mul]
  exact costs_orBroken _

mutual

theorem search_costs (shard : Shard) : ∀ q : Query, Costs (search shard q)
    (DocSet.bytesFor shard.numDocs) (q.height * DocSet.bytesFor shard.numDocs)
  | .and parts => by
    rw [search, height]
    exact costs_level (narrow_costs shard parts _)
  | .or parts => by
    rw [search, height]
    exact costs_level (narrow_costs shard parts _)
  | .not part => by
    intro l h
    rw [search, height]
    exact ends_bind ((search_costs shard part l h).mono (fun _ _ h1 => ends_pure h1)
      fun _ _ h1 => h1)
  | .term field t => by
    rw [search_term, height]
    exact costs_leaf _
  | .intRange field min max inclusive => by
    rw [search_intRange, height]
    exact costs_leaf _
  | .stringRange field min max inclusive => by
    rw [search_stringRange, height]
    exact costs_leaf _

theorem narrow_costs (shard : Shard) {join? : DocSet → DocSet → Option DocSet} :
    ∀ (parts : List Query) (acc : DocSet), Costs (narrow shard join? acc parts) 0
      (tallest parts * DocSet.bytesFor shard.numDocs)
  | [], acc => by
    rw [narrow, tallest, Nat.zero_mul]
    exact costs_pure acc
  | part :: parts, acc => by
    intro l h
    have hmax : max part.height (tallest parts) * DocSet.bytesFor shard.numDocs =
        max (part.height * DocSet.bytesFor shard.numDocs)
          (tallest parts * DocSet.bytesFor shard.numDocs) := (Nat.mul_max_mul_right _ _ _).symm
    rw [narrow, tallest, hmax]
    refine ends_bind ((search_costs shard part l h).mono ?_ ?_)
    · rintro found l1 ⟨hneed, hs1⟩
      refine ends_bind (ends_orBroken (fun joined _ => ?_) fun _ => trivial)
      refine ends_bind (ends_release_spent hs1 fun l2 hs2 => ?_)
      -- the set that was found is given back before the next part is searched for
      have hrest : ∀ n, l2.Affords n ↔ l.Affords n := fun n => by
        rw [hs2.affords_iff l.affords_zero, Nat.zero_add]
      refine (narrow_costs shard parts joined l2 hs2.coherent).mono ?_ ?_
      · rintro docs l3 ⟨hneed', hs3⟩
        exact ⟨Ledger.affords_max.mpr ⟨hneed, (hrest _).mp hneed'⟩, hs2.then hs3⟩
      · rintro (e | _) l3 he
        · obtain ⟨hmemory, hneed', k, hs3⟩ := he
          refine ⟨hmemory, fun hboth => hneed' ?_, _, hs2.then hs3⟩
          exact (hrest _).mpr (Ledger.affords_max.mp hboth).2
        · trivial
    · rintro (e | _) l1 he
      · obtain ⟨hmemory, hneed, k, hs1⟩ := he
        exact ⟨hmemory, fun hboth => hneed (Ledger.affords_max.mp hboth).1, k, hs1⟩
      · trivial

end

end Cohort.Query
