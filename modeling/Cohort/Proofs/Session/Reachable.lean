import Cohort.Proofs.Session.Calls

/-!
# Reachable sessions — what a caller can bring about

A `Live` session is one that its caller may go on using, with the bytes that were claimed on its
ledger by hand. A `Step` answers or refuses one request, moves bytes by hand, or is something that
another account of the same pool does. `Reachable.sound` is the invariant of all runs.
-/

namespace Cohort

/-- What a caller can ask of a session: the commands of a script, tables and reads. -/
inductive Request where
  | command (c : Command)
  | pushValues (name : String) (values : ValueTable)
  | groupOf (doc : Nat)
  | exportGroups (entries : Nat)
  | zeroGroupDocs
  | stat (index : Nat)
  | metric (name : String)

inductive Answer where
  | outcome (o : Outcome)
  | group (x : Nat)
  | groups (xs : List Nat)
  | count (n : Nat)
  | values (t : ValueTable)
  | counters (c : Counters)

def Request.apply : Request → Call Answer
  | command c => .outcome <$> c.apply
  | pushValues name values => (.outcome <| .statDepth ·) <$> Session.pushValues name values
  | groupOf doc => .group <$> Session.groupOf doc
  | exportGroups entries => .groups <$> Session.exportGroups entries
  | zeroGroupDocs => .count <$> Session.zeroGroupDocs
  | stat index => .values <$> Session.stat index
  | metric name => do return .counters (← orRefused ((← get).metricNamed name))

/-- A session between two calls; `hand` bytes of its ledger were claimed by hand. -/
structure Live where
  session : Session
  hand : Nat

namespace Live

/-- One step of a run. A broken check ends the run, so there is no step for it. -/
inductive Step : Live → Live → Prop
  | answered {x : Live} {r : Request} {a : Answer} {s' : Session}
      (h : r.apply x.session = .ok a s') : Step x ⟨s', x.hand⟩
  | refused {x : Live} {r : Request} {e : Error} {s' : Session}
      (h : r.apply x.session = .error (.refused e) s') : Step x ⟨s', x.hand⟩
  | claimed {x : Live} {b : Nat} {l : Memory.Ledger} (h : x.session.ledger.claim? b = some l) :
      Step x ⟨{ x.session with ledger := l }, x.hand + b⟩
  | released {x : Live} {b : Nat} {l : Memory.Ledger} (hb : b ≤ x.hand)
      (h : x.session.ledger.release? b = some l) :
      Step x ⟨{ x.session with ledger := l }, x.hand - b⟩
  /-- Other accounts of the pool claim and release what is theirs. -/
  | elsewhere {x : Live} {p p' : Memory.Account} (h : x.session.ledger.pool = some p)
      (hlimit : p'.limit = p.limit) (hlo : x.session.ledger.used ≤ p'.used)
      (hhi : p'.used ≤ p'.limit) :
      Step x ⟨{ x.session with ledger := { x.session.ledger with pool := some p' } }, x.hand⟩

/-- The sessions of a shard that some run leads to, over any coherent ledger. -/
inductive Reachable (shard : Shard) (config : Config) : Live → Prop
  | start {l : Memory.Ledger} {s : Session} (hl : l.Coherent)
      (h : Session.start shard l config = .ok s) : Reachable shard config ⟨s, l.used⟩
  | step {x y : Live} (hx : Reachable shard config x) (h : Step x y) : Reachable shard config y

end Live

/-! ### The invariant -/

namespace Session

open Call

variable {shard : Shard} {config : Config} {hand : Nat} {s : Session}

/-- An answer that reports a number of groups, after which the grouping has as many. -/
def Answers (a : Answer) (g : Grouping) : Prop :=
  ∀ n, a = .outcome (.groups n) → g.numGroups = n

theorem serves_read {α : Type} {x : Call α} {f : α → Answer}
    (hf : ∀ a n, f a ≠ .outcome (.groups n))
    (h : Serves shard config 1 hand s x s fun _ _ => True) :
    Serves shard config 1 hand s (f <$> x) s Answers := by
  refine serves_map (h.mono ?_ (fun _ _ he => he))
  rintro a s' ⟨hs', -⟩
  exact ⟨hs', fun n hn => absurd hn (hf a n)⟩

theorem serves_zeroGroupDocs (hs : s.Sound shard config 1 hand) :
    Serves shard config 1 hand s zeroGroupDocs s fun _ _ => True := by
  refine serves_get ?_
  cases s.zeroCount with
  | some n => exact serves_pure hs trivial
  | none => exact ends_bind (ends_modify (ends_pure ⟨sound_forget hs _, trivial⟩))

/-- Every request serves the session. -/
theorem serves_request (hs : s.Sound shard config 1 hand) (r : Request) :
    Serves shard config 1 hand s r.apply s Answers := by
  cases r with
  | command c =>
    refine serves_map ((serves_apply hs c).mono ?_ (fun _ _ he => he))
    rintro o s' ⟨hs', ho⟩
    refine ⟨hs', fun n hn => ?_⟩
    cases hn
    exact ho n rfl
  | pushValues name values =>
    exact serves_read (fun _ _ => nofun) (serves_pushValues hs name values)
  | groupOf doc =>
    exact serves_read (fun _ _ => nofun) (serves_get (serves_orBroken hs fun _ _ => trivial))
  | exportGroups entries =>
    exact serves_read (fun _ _ => nofun) (serves_get
      (serves_orRefused_bind hs (Kept.refl s) fun _ _ => serves_pure hs trivial))
  | zeroGroupDocs => exact serves_read (fun _ _ => nofun) (serves_zeroGroupDocs hs)
  | stat index =>
    exact serves_read (fun _ _ => nofun) (serves_get
      (serves_orRefused hs (Kept.refl s) fun _ _ => trivial))
  | metric name =>
    refine serves_get (serves_orRefused_bind hs (Kept.refl s) fun _ _ => serves_pure hs ?_)
    exact fun _ hn => by cases hn

/-- A session that starts has checked its configuration and its shard, and has claimed its first set
of buffers. -/
theorem start_inv {l : Memory.Ledger} (h : start shard l config = .ok s) :
    0 < config.bufferSize ∧ shard.numDocs ≤ maxId ∧ ∃ buffers l',
      Memory.BufferPool.create config.bufferSize config.pooledBuffers l = .ok buffers l' ∧
      s = ⟨shard, config, l', buffers, .constant 1 shard.numDocs, .empty config.maxStats, [],
        none⟩ := by
  unfold start at h
  split at h
  · cases h
  · rename_i hchecked
    obtain ⟨_, hvalid, hdocs⟩ := exists_of_bind_ok hchecked
    have hdocs := require_ok hdocs
    simp only [decide_eq_true_eq] at hdocs
    have hsize : 0 < config.bufferSize := by
      by_contra hpos
      rw [Config.validate, if_neg hpos] at hvalid
      cases hvalid
    split at h
    · cases h
    · rename_i hrun
      cases h
      exact ⟨hsize, hdocs, _, _, hrun, rfl⟩

/-- What a new session shows. -/
theorem start_ok {l : Memory.Ledger} (h : start shard l config = .ok s) :
    s.grouping = .constant 1 shard.numDocs ∧ s.stats = .empty config.maxStats ∧ s.metrics = [] ∧
      s.zeroCount = none := by
  obtain ⟨-, -, _, _, -, rfl⟩ := start_inv h
  exact ⟨rfl, rfl, rfl, rfl⟩

/-- A new session holds its first set of buffers and nothing else. -/
theorem sound_start {l : Memory.Ledger} (hl : l.Coherent) (h : start shard l config = .ok s) :
    s.Sound shard config 1 l.used := by
  obtain ⟨-, hdocs, _, _, hrun, rfl⟩ := start_inv h
  obtain ⟨hclaim, rfl⟩ := Memory.BufferPool.create_ok hrun
  obtain ⟨hcoh, hused⟩ := hl.claim? hclaim
  exact ⟨rfl, rfl, rfl, hcoh, hused.trans (Nat.add_comm _ _),
    Grouping.wellFormed_constant 1 hdocs, nofun⟩

theorem bufferSize_pos_of_start {l : Memory.Ledger} (h : start shard l config = .ok s) :
    0 < config.bufferSize := (start_inv h).1

/-- Bytes that others claim on the ledger or give back. -/
theorem Sound.withLedger {free hand' : Nat} (hs : s.Sound shard config free hand)
    {l : Memory.Ledger} (hl : l.Coherent) (hused : l.used + hand = s.ledger.used + hand') :
    ({ s with ledger := l } : Session).Sound shard config free hand' := by
  refine ⟨hs.shard_eq, hs.config_eq, hs.buffers_eq, hl, ?_, hs.wellFormed, hs.counters⟩
  have h := hs.used_eq
  unfold heldBytes at h ⊢
  simp only
  omega

end Session

namespace Live

variable {shard : Shard} {config : Config} {x y : Live}

theorem Step.sound (h : Step x y) (hx : x.session.Sound shard config 1 x.hand) :
    y.session.Sound shard config 1 y.hand := by
  cases h with
  | @answered r a s' h => exact ((Session.serves_request hx r).ok_of h).1
  | @refused r e s' h => exact ((Session.serves_request hx r).err_of h).1
  | @claimed b l h =>
    obtain ⟨hl, hused⟩ := hx.coherent.claim? h
    have hbytes : l.used + x.hand = x.session.ledger.used + (x.hand + b) := by omega
    exact hx.withLedger hl hbytes
  | @released b l hb h =>
    have hle : b ≤ x.session.ledger.used := by
      have := hx.used_eq
      omega
    obtain ⟨l', hl', hcoh, hused⟩ := hx.coherent.release? hle
    obtain rfl : l' = l := Option.some_inj.mp (hl'.symm.trans h)
    have hbytes : l'.used + x.hand = x.session.ledger.used + (x.hand - b) := by omega
    exact hx.withLedger hcoh hbytes
  | @elsewhere p p' h hlimit hlo hhi =>
    refine hx.withLedger ⟨hx.coherent.used_le_peak, hx.coherent.peak_le_limit, ?_, ?_⟩ rfl
    · rintro q hq
      cases hq
      exact hlo
    · rintro q hq
      cases hq
      exact hhi

/-- The invariant of all runs. -/
theorem Reachable.sound (h : Reachable shard config x) :
    x.session.Sound shard config 1 x.hand := by
  induction h with
  | start hl h => exact Session.sound_start hl h
  | step _ h ih => exact h.sound ih

theorem Reachable.bufferSize_pos (h : Reachable shard config x) : 0 < config.bufferSize := by
  induction h with
  | start _ h => exact Session.bufferSize_pos_of_start h
  | step _ _ ih => exact ih

end Live

end Cohort
