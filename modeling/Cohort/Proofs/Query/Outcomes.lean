import Mathlib
import Cohort.Proofs.Query.Peak

/-!
# Outcomes of searches — what a search finds, and what it costs

For the shards that can be built no check of a search can break: it is refused if the memory for its
sets is not there, and otherwise gives the documents that the query selects.
-/

namespace Cohort.Query

open Memory Memory.Charge

variable {shard : Shard}

/-! ### What is found -/

/-- A search that goes through gives a set over the documents of the shard, without a bit past
them, which holds exactly the documents that the query selects. -/
theorem search_finds (hb : shard.Built) (q : Query) {l l' : Ledger} {docs : DocSet}
    (h : q.search shard l = .ok docs l') :
    docs.len = shard.numDocs ∧ docs.WellFormed ∧
      ∀ d < shard.numDocs, docs.contains d = true ↔ q.Selects shard d := by
  have hcomp := (search_yields hb.ascending q l).ok_of h
  refine ⟨hcomp.len_eq, hcomp.wellFormed, fun d hd => ?_⟩
  rw [hcomp.contains_eq d hd, satisfies_iff]

/-- Documents with ages, and with names that only some have. -/
def people : Shard :=
  ⟨3, [("age", ⟨[(10, [0]), (20, [1, 2]), (30, [2])]⟩)], [("name", ⟨[("b", [0, 2]), ("é", [2])]⟩)]⟩

theorem built_people : people.Built := by
  have hcolumns : ShardColumns.toShard ⟨3,
      [("age", [.one 10, .one 20, .many [30, 20]])],
      [("name", [.one "b", .missing, .many ["é", "b"]])]⟩ = .ok people := by cbv
  exact Shard.built_of_toShard hcolumns

/-- Not ten years old, and of a name from `c` on or of an age in an empty range. -/
def lateNamed : Query :=
  .and [.not (.term "age" (.int 10)),
    .or [.stringRange "name" "c" "é" true, .intRange "age" 30 10 true]]

/-- The third document has a name that comes late, in bytes too. -/
theorem search_finds_people :
    ∃ docs l', lateNamed.search people (.fresh 100 none) = .ok docs l' ∧ docs.len = 3 ∧
      docs.WellFormed ∧ docs.contains 0 = false ∧ docs.contains 2 = true := by
  obtain ⟨docs, l', h⟩ : ∃ docs l', lateNamed.search people (.fresh 100 none) = .ok docs l' :=
    ⟨_, _, by cbv⟩
  obtain ⟨hlen, hwf, hfinds⟩ := search_finds built_people lateNamed h
  have hfirst : lateNamed.satisfies people 0 = false := by cbv
  have hthird : lateNamed.satisfies people 2 = true := by cbv
  refine ⟨docs, l', h, hlen, hwf, ?_, ?_⟩
  · rw [← Bool.not_eq_true, hfinds 0 (by decide), ← satisfies_iff, hfirst]
    exact Bool.false_ne_true
  · rw [hfinds 2 (by decide), ← satisfies_iff, hthird]

/-! ### What it costs -/

/-- A search goes through if and only if the account and its pool have as many sets left as the
query is high. Then it holds one set, after up to that many on the way, and once that set is given
back the account and its pool hold what they held before. Else it is refused for lack of memory,
and they hold what they held before as well. -/
theorem search_cost (hb : shard.Built) (q : Query) {l : Ledger} (hl : l.Coherent) :
    ((∃ docs l', q.search shard l = .ok docs l') ↔
      l.Affords (q.height * DocSet.bytesFor shard.numDocs)) ∧
    (∀ docs l', q.search shard l = .ok docs l' →
      l.Spent l' (DocSet.bytesFor shard.numDocs) (q.height * DocSet.bytesFor shard.numDocs) ∧
      ∃ l'', release (DocSet.bytesFor shard.numDocs) l' = .ok () l'' ∧
        l.Spent l'' 0 (q.height * DocSet.bytesFor shard.numDocs)) ∧
    (∀ e l', q.search shard l = .error e l' →
      (∃ s, e = .refused (.outOfMemory s)) ∧ ∃ k, l.Spent l' 0 k) := by
  have hcosts := search_costs shard q l hl
  -- the documents of a built shard are in range, so a search that fails is short of memory
  have herror : ∀ e l', q.search shard l = .error e l' → (∃ s, e = .refused (.outOfMemory s)) ∧
      ¬ l.Affords (q.height * DocSet.bytesFor shard.numDocs) ∧ ∃ k, l.Spent l' 0 k := by
    intro e l' h
    cases e with
    | broken => exact absurd hb.ascending ((search_secures shard q l hl).err_of h)
    | refused e =>
      obtain ⟨⟨s, rfl⟩, hneed, hspent⟩ := hcosts.err_of h
      exact ⟨⟨s, rfl⟩, hneed, hspent⟩
  refine ⟨⟨?_, fun ha => ?_⟩, fun docs l' h => ?_, fun e l' h => ?_⟩
  · rintro ⟨docs, l', h⟩
    exact (hcosts.ok_of h).1
  · cases h : q.search shard l with
    | ok docs l' => exact ⟨docs, l', rfl⟩
    | error e l' => exact absurd ha (herror e l' h).2.1
  · obtain ⟨-, hs⟩ := hcosts.ok_of h
    obtain ⟨l'', hl'', hs''⟩ := hs.exists_release?
    exact ⟨hs, l'', by unfold release; rw [hl''], hs''⟩
  · obtain ⟨hmemory, -, hspent⟩ := herror e l' h
    exact ⟨hmemory, hspent⟩

/-- Three sets fit in a pool that others draw on as well, but not with one byte less. -/
theorem search_cost_people :
    (∃ docs l', lateNamed.search people ⟨⟨100, 8, 10⟩, some ⟨54, 30, 50⟩⟩ = .ok docs l' ∧
      l'.own.used = 16 ∧ l'.own.peak = 32) ∧
    ¬ ∃ docs l', lateNamed.search people ⟨⟨100, 8, 10⟩, some ⟨53, 30, 50⟩⟩ = .ok docs l' := by
  have hcoherent : ∀ limit, 30 ≤ limit →
      Ledger.Coherent ⟨⟨100, 8, 10⟩, some ⟨limit, 30, 50⟩⟩ := by
    intro limit hlimit
    refine ⟨show 8 ≤ 10 by decide, show 10 ≤ 100 by decide, fun p hp => ?_, fun p hp => ?_⟩ <;>
      cases hp
    · exact show 8 ≤ 30 by decide
    · exact hlimit
  obtain ⟨hfits, hheld, -⟩ := search_cost built_people lateNamed (hcoherent 54 (by decide))
  obtain ⟨hshort, -⟩ := search_cost built_people lateNamed (hcoherent 53 (by decide))
  refine ⟨?_, fun h => ?_⟩
  · obtain ⟨docs, l', h⟩ := hfits.mpr ⟨by decide, fun p hp => by cases hp; decide⟩
    obtain ⟨hs, -⟩ := hheld docs l' h
    exact ⟨docs, l', h, hs.used_eq, hs.peak_eq⟩
  · have hleft := (hshort.mp h).2 ⟨53, 30, 50⟩ rfl
    exact absurd hleft (by decide)

end Cohort.Query
