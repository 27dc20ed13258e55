import Cohort.Proofs.Session.Progress
import Cohort.Proofs.Session.Agree

/-!
# Budgets — memory decides whether a request goes through, not what it does

`withLimits` holds the same bytes against other limits. A session with larger limits has room for
all that the session had room for, so the two are strict twins: what the one answers, the other
answers too, and both are left with the same groups, stats and metrics.
-/

namespace Cohort

namespace Memory.Ledger

/-- The same bytes held against `limit`, and against `poolLimit` in the pool. -/
def withLimits (l : Ledger) (limit poolLimit : Nat) : Ledger :=
  ⟨{ l.own with limit }, l.pool.map ({ · with limit := poolLimit })⟩

variable {l : Ledger} {limit poolLimit : Nat}

theorem coherent_withLimits (hl : l.Coherent) (hown : l.own.limit ≤ limit)
    (hpool : ∀ p ∈ l.pool, p.limit ≤ poolLimit) : (l.withLimits limit poolLimit).Coherent := by
  refine ⟨hl.used_le_peak, Nat.le_trans hl.peak_le_limit hown, ?_, ?_⟩
  · intro p' hp'
    obtain ⟨p, hp, rfl⟩ := Option.map_eq_some_iff.mp hp'
    exact hl.used_le_pool p hp
  · intro p' hp'
    obtain ⟨p, hp, rfl⟩ := Option.map_eq_some_iff.mp hp'
    exact Nat.le_trans (hl.pool_le_limit p hp) (hpool p hp)

theorem wider_withLimits (hown : l.own.limit ≤ limit) (hpool : ∀ p ∈ l.pool, p.limit ≤ poolLimit) :
    l.Wider (l.withLimits limit poolLimit) := by
  refine ⟨Nat.sub_le_sub_right hown _, fun p' hp' => ?_⟩
  obtain ⟨p, hp, rfl⟩ := Option.map_eq_some_iff.mp hp'
  exact ⟨p, hp, Nat.sub_le_sub_right (hpool p hp) _⟩

end Memory.Ledger

namespace Session

open Memory.Ledger (coherent_withLimits wider_withLimits)

def withLimits (s : Session) (limit poolLimit : Nat) : Session :=
  { s with ledger := s.ledger.withLimits limit poolLimit }

variable {strict : Prop} {shard : Shard} {config : Config} {free hand limit poolLimit : Nat}
  {s t : Session}

theorem Sound.withLimits (hs : s.Sound shard config free hand) (hown : s.ledger.own.limit ≤ limit)
    (hpool : ∀ p ∈ s.ledger.pool, p.limit ≤ poolLimit) :
    (s.withLimits limit poolLimit).Sound shard config free hand :=
  hs.withLedger (coherent_withLimits hs.coherent hown hpool) rfl

/-- With larger limits, no claim fails that did not fail before. -/
theorem twins_withLimits (hown : s.ledger.own.limit ≤ limit)
    (hpool : ∀ p ∈ s.ledger.pool, p.limit ≤ poolLimit) :
    Twins strict s (s.withLimits limit poolLimit) :=
  ⟨rfl, rfl, rfl, rfl, fun _ => wider_withLimits hown hpool⟩

/-- Twins of one configuration differ in nothing but their ledgers. -/
theorem Twins.eq_withLedger (ht : Twins strict s t) (hs : s.Sound shard config free hand)
    (ht' : t.Sound shard config free hand) : t = { s with ledger := t.ledger } := by
  have hshard := ht'.shard_eq.trans hs.shard_eq.symm
  have hconfig := ht'.config_eq.trans hs.config_eq.symm
  have hbuffers := ht'.buffers_eq.trans hs.buffers_eq.symm
  cases t
  cases s
  simp only [Session.mk.injEq]
  exact ⟨hshard, hconfig, trivial, hbuffers, ht.grouping_eq, ht.stats_eq, ht.metrics_eq,
    ht.zeroCount_eq⟩

/-- They hold the same, so their ledgers are charged the same. -/
theorem Twins.used_eq (ht : Twins strict s t) (hs : s.Sound shard config free hand)
    (ht' : t.Sound shard config free hand) : t.ledger.used = s.ledger.used := by
  have hheld : t.heldBytes = s.heldBytes := by
    unfold heldBytes
    rw [ht.grouping_eq, ht.stats_eq, ht.metrics_eq, ht'.buffers_eq, hs.buffers_eq]
  rw [ht'.used_eq, hs.used_eq, hheld]

end Session

namespace Live

variable {shard : Shard} {config : Config} {x : Live} {r : Request} {a : Answer} {s' : Session}
  {limit poolLimit : Nat}

/-- What a session answers, it answers with larger limits too, its own and those of its pool: with
the same value, and leaving the same session but for the limits, with as many bytes held. -/
theorem Reachable.larger_budget (h : Reachable shard config x) (hb : shard.Built)
    (hr : r.apply x.session = .ok a s') (hown : x.session.ledger.own.limit ≤ limit)
    (hpool : ∀ p ∈ x.session.ledger.pool, p.limit ≤ poolLimit) :
    ∃ l, r.apply (x.session.withLimits limit poolLimit) = .ok a { s' with ledger := l } ∧
      l.used = s'.ledger.used := by
  have hs := h.sound
  have hs' := hs.withLimits hown hpool
  have hc := h.bufferSize_pos
  have htwins : Session.Twins True x.session (x.session.withLimits limit poolLimit) :=
    Session.twins_withLimits hown hpool
  have halike := Call.alike_request hs hs' htwins hb.ascending hc hc (fun _ => rfl)
    (h.numGroups_le hb) (fun hdiff => absurd rfl hdiff) r
  have hend := ((Session.serves_request hs r).ok_of hr).1
  have hserves := Session.serves_request hs' r
  unfold Call.Serves Ends at hserves
  rw [hr] at halike
  generalize r.apply (x.session.withLimits limit poolLimit) = run at halike hserves ⊢
  cases halike with
  | @ok _ _ t ht => exact ⟨t.ledger, congrArg _ (ht.eq_withLedger hend hserves.1),
      ht.used_eq hend hserves.1⟩
  | rightShort hstrict => exact absurd trivial hstrict

/-- A session over `ages` that draws on a pool. -/
def pooled : Session := { opened 100 with ledger := ⟨⟨100, 32, 32⟩, some ⟨70, 32, 32⟩⟩ }

theorem reachable_pooled : Reachable ages narrow ⟨pooled, 0⟩ :=
  .start (l := .fresh 100 (some 70)) (Memory.Ledger.coherent_fresh 100 (some 70)) rfl

/-- The documents of age 20 are moved out of the way. -/
def pooledTwenty : Session :=
  { pooled with
    ledger := ⟨⟨100, 35, 43⟩, some ⟨70, 35, 43⟩⟩
    grouping := .stored ⟨.byte, 2, 3, #[1, 2, 2]⟩ }

theorem Reachable.larger_budget_pooled : ∃ l,
    (Request.command (.intOr "age" [20] ⟨1, 1, 2⟩)).apply (pooled.withLimits 100 200) =
      .ok (.outcome (.groups 3)) { pooledTwenty with ledger := l } ∧ l.used = 35 := by
  have hr : (Request.command (.intOr "age" [20] ⟨1, 1, 2⟩)).apply pooled =
      .ok (.outcome (.groups 3)) pooledTwenty := by
    cbv
  have hpool : ∀ p ∈ pooled.ledger.pool, p.limit ≤ 200 := by
    intro p hp
    cases hp
    decide
  exact Reachable.larger_budget reachable_pooled built_ages hr (Nat.le_refl 100) hpool

end Live

end Cohort
