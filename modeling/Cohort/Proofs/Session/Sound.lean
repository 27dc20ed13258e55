import Cohort.Proofs.Grouping.Pass
import Cohort.Proofs.Session.Counters
import Cohort.Session.Basic

/-!
# Sound sessions — what holds of a session between two steps of a call

`Session.Sound`: the grouping and the counters of every metric are well-formed, and the ledger is
charged for what the session holds and for `hand` bytes more, which somebody else claimed on it.
`Call.Serves`: a call takes a sound session to a sound one, and where it is refused the groups, the
stats and the metrics are those that it started from.
-/

namespace Cohort

namespace Session

open Memory (BufferPool)

/-- The buffer pool of a session while `free` of its sets are not in use. -/
def bufferPool (config : Config) (free : Nat) : BufferPool :=
  ⟨config.bufferSize, max 1 config.pooledBuffers, free, BufferPool.bytesFor config.bufferSize⟩

structure Sound (shard : Shard) (config : Config) (free hand : Nat) (s : Session) : Prop where
  shard_eq : s.shard = shard
  config_eq : s.config = config
  buffers_eq : s.buffers = bufferPool config free
  coherent : s.ledger.Coherent
  used_eq : s.ledger.used = s.heldBytes + hand
  wellFormed : s.grouping.WellFormed shard.numDocs
  counters : ∀ m ∈ s.metrics, m.2.WellFormed shard.numDocs

/-- The same groups, stats and metrics. -/
structure Kept (s s' : Session) : Prop where
  get?_eq : ∀ d, s'.grouping.get? d = s.grouping.get? d
  numGroups_eq : s'.numGroups = s.numGroups
  stats_eq : s'.stats = s.stats
  metrics_eq : s'.metrics = s.metrics

variable {shard : Shard} {config : Config} {free hand : Nat} {s s₀ : Session}

theorem Sound.size_eq (hs : s.Sound shard config free hand) (m : String × Counters)
    (hm : m ∈ s.metrics) : m.2.size = shard.numDocs :=
  (hs.counters m hm).size_eq

theorem Kept.refl (s : Session) : s.Kept s := ⟨fun _ => rfl, rfl, rfl, rfl⟩

/-- The bytes of the grouping can be given back. -/
theorem Sound.paid (hs : s.Sound shard config free hand) :
    Workspace.Paid ⟨s.ledger, s.grouping⟩ := by
  refine ⟨hs.coherent, ?_⟩
  have h := hs.used_eq
  unfold heldBytes at h
  simp only
  omega

/-- Buffer sets that come and go move no bytes. -/
theorem Sound.withFree (hs : s.Sound shard config free hand) (n : Nat) :
    ({ s with buffers := bufferPool config n } : Session).Sound shard config n hand := by
  refine ⟨hs.shard_eq, hs.config_eq, rfl, hs.coherent, ?_, hs.wellFormed, hs.counters⟩
  have h := hs.used_eq
  unfold heldBytes at h ⊢
  rw [hs.buffers_eq] at h
  exact h

/-! ### Metrics -/

theorem metricBytes_eq_sum (metrics : List (String × Counters)) :
    (metrics.map (·.2.bytes)).sum = metrics.foldr (·.2.bytes + ·) 0 := by
  unfold List.sum
  rw [List.foldr_map]

/-- Metrics of the same number of documents take the same number of bytes each. -/
theorem metricBytes_eq {metrics : List (String × Counters)} {n : Nat}
    (h : ∀ m ∈ metrics, m.2.size = n) :
    metrics.foldr (·.2.bytes + ·) 0 = metrics.length * Counters.bytesFor n := by
  induction metrics with
  | nil => exact (Nat.zero_mul _).symm
  | cons m ms ih =>
    have hm : m.2.bytes = Counters.bytesFor n := by
      unfold Counters.bytes
      rw [h m List.mem_cons_self]
    rw [List.foldr_cons, ih fun m' hm' => h m' (List.mem_cons_of_mem _ hm'), hm,
      List.length_cons, Nat.succ_mul, Nat.add_comm]

end Session

/-! ### Rules for calls -/

namespace Call

open Session

variable {α β : Type} {shard : Shard} {config : Config} {free hand : Nat} {s s₀ : Session}
  {ok : α → Grouping → Prop}

/-- `x`, run from `s` in a call that started from `s₀`, ends in a sound session: with `ok` of its
value and the grouping, or refused and with what `s₀` held. -/
def Serves (shard : Shard) (config : Config) (free hand : Nat) (s₀ : Session) (x : Call α)
    (s : Session) (ok : α → Grouping → Prop) : Prop :=
  Ends x s (fun a s' => s'.Sound shard config free hand ∧ ok a s'.grouping)
    (OnRefusal fun _ s' => s'.Sound shard config free hand ∧ s₀.Kept s')

theorem serves_pure {a : α} (hs : s.Sound shard config free hand) (h : ok a s.grouping) :
    Serves shard config free hand s₀ (pure a) s ok :=
  ends_pure ⟨hs, h⟩

theorem serves_orBroken {o : Option α} (hs : s.Sound shard config free hand)
    (h : ∀ a, o = some a → ok a s.grouping) :
    Serves shard config free hand s₀ (orBroken o) s ok :=
  ends_orBroken (fun a ha => ⟨hs, h a ha⟩) fun _ => trivial

theorem serves_orRefused {r : Except Error α} (hs : s.Sound shard config free hand)
    (hk : s₀.Kept s) (h : ∀ a, r = .ok a → ok a s.grouping) :
    Serves shard config free hand s₀ (orRefused r) s ok :=
  ends_orRefused (fun a ha => ⟨hs, h a ha⟩) fun _ _ => ⟨hs, hk⟩

theorem serves_map {x : Call β} {f : β → α}
    (h : Serves shard config free hand s₀ x s fun b => ok (f b)) :
    Serves shard config free hand s₀ (f <$> x) s ok :=
  ends_map h

/-- A check before the rest of a call, which leaves the session as it is. -/
theorem serves_orRefused_bind {r : Except Error β} {f : β → Call α}
    (hs : s.Sound shard config free hand) (hk : s₀.Kept s)
    (h : ∀ b, r = .ok b → Serves shard config free hand s₀ (f b) s ok) :
    Serves shard config free hand s₀ (orRefused r >>= f) s ok :=
  ends_bind (ends_orRefused h fun _ _ => ⟨hs, hk⟩)

theorem serves_get {f : Session → Call α} (h : Serves shard config free hand s₀ (f s) s ok) :
    Serves shard config free hand s₀ (get >>= f) s ok :=
  ends_bind (ends_get h)

theorem ends_onLedger {x : Memory.Charge α} {ok : α → Session → Prop}
    {err : Failure → Session → Prop}
    (h : Ends x s.ledger (fun a l => ok a { s with ledger := l })
      (fun e l => err e { s with ledger := l })) :
    Ends (onLedger x) s ok err := by
  unfold Ends at h ⊢
  unfold onLedger
  split at h <;> rename_i hx <;> simp only [hx] <;> exact h

/-- A pass over a grouping that is paid for. -/
theorem serves_onGrouping {x : Pass α} (hs : s.Sound shard config free hand) (hk : s₀.Kept s)
    (h : x.Ensures s.grouping (fun a g' => g'.WellFormed shard.numDocs ∧ ok a g')
      fun _ g' => s.grouping.Unmoved shard.numDocs g') :
    Serves shard config free hand s₀ (onGrouping x) s ok := by
  -- what the ledger was charged is what the grouping grew by
  have hsound : ∀ w : Workspace, Workspace.Settled ⟨s.ledger, s.grouping⟩ w →
      w.grouping.WellFormed shard.numDocs →
      ({ s with ledger := w.ledger, grouping := w.grouping } : Session).Sound shard config free
        hand := by
    intro w hw hwf
    refine ⟨hs.shard_eq, hs.config_eq, hs.buffers_eq, hw.coherent, ?_, hwf, hs.counters⟩
    have h1 := hs.used_eq
    have h2 := hw.used_add
    unfold heldBytes at h1 ⊢
    simp only at h2 ⊢
    omega
  have hx := h s.ledger hs.paid
  unfold Ends at hx
  unfold Serves Ends onGrouping
  split at hx <;> rename_i hrun <;> simp only [hrun]
  · obtain ⟨hset, hwf, hok⟩ := hx
    exact ⟨hsound _ hset hwf, hok⟩
  · rename_i e w
    cases e with
    | broken => trivial
    | refused e =>
      obtain ⟨hset, hun⟩ := hx
      refine ⟨hsound _ hset hun.wellFormed, ?_, ?_, hk.stats_eq, hk.metrics_eq⟩
      · exact fun d => (hun.get?_eq d).trans (hk.get?_eq d)
      · exact hun.numGroups_eq.trans hk.numGroups_eq

/-- A pool with a set at hand lends it without a charge and takes it back. -/
theorem withBuffers_eq {body : Feed → Call α} (hs : s.Sound shard config 1 hand) :
    withBuffers body s = tryFinally (body ⟨shard, config.bufferSize⟩)
      (modify ({ · with buffers := bufferPool config 1 }))
      { s with buffers := bufferPool config 0 } := by
  have hfree : (bufferPool config 0).free < (bufferPool config 0).maxPooled :=
    Nat.lt_of_lt_of_le Nat.zero_lt_one (Nat.le_max_left _ _)
  have hback : (onLedger (bufferPool config 0).giveBack >>= fun kept =>
      (modify ({ · with buffers := kept }) : Call Unit)) =
        modify ({ · with buffers := bufferPool config 1 }) := by
    unfold Memory.BufferPool.giveBack
    rw [if_pos hfree]
    rfl
  rw [← hback, ← hs.config_eq, ← hs.shard_eq]
  show (onLedger s.buffers.take >>= _) s = _
  rw [hs.buffers_eq, ← hs.config_eq]
  rfl

theorem ends_withBuffers {body : Feed → Call α} {ok : α → Session → Prop}
    {err : Failure → Session → Prop} (hs : s.Sound shard config 1 hand)
    (h : Ends (body ⟨shard, config.bufferSize⟩) { s with buffers := bufferPool config 0 }
      (fun a t => ok a { t with buffers := bufferPool config 1 })
      (fun e t => err e { t with buffers := bufferPool config 1 })) :
    Ends (withBuffers body) s ok err := by
  have hrun : Ends (tryFinally (body ⟨shard, config.bufferSize⟩)
      (modify ({ · with buffers := bufferPool config 1 })))
      { s with buffers := bufferPool config 0 } ok err :=
    ends_finally (h.mono (fun _ _ ht => ends_modify ht) fun _ _ ht => ends_modify ht)
  unfold Ends at hrun ⊢
  rw [withBuffers_eq hs]
  exact hrun

theorem serves_withBuffers {body : Feed → Call α} (hs : s.Sound shard config 1 hand)
    (h : Serves shard config 0 hand s₀ (body ⟨shard, config.bufferSize⟩)
      { s with buffers := bufferPool config 0 } ok) :
    Serves shard config 1 hand s₀ (withBuffers body) s ok := by
  refine ends_withBuffers hs (h.mono ?_ ?_)
  · rintro a t ⟨ht, hok⟩
    exact ⟨ht.withFree 1, hok⟩
  · rintro (e | _) t ht
    · obtain ⟨ht, hk⟩ := ht
      exact ⟨ht.withFree 1, hk.get?_eq, hk.numGroups_eq, hk.stats_eq, hk.metrics_eq⟩
    · trivial

/-- Forgetting the count of the documents in group 0 changes nothing else. -/
theorem sound_forget (hs : s.Sound shard config free hand) (n : Option Nat) :
    ({ s with zeroCount := n } : Session).Sound shard config free hand :=
  ⟨hs.shard_eq, hs.config_eq, hs.buffers_eq, hs.coherent, hs.used_eq, hs.wellFormed, hs.counters⟩

/-- A regroup runs its pass with a set of buffers and forgets the count. -/
theorem ends_regroup {body : Session → Feed → Pass Nat} {ok : Nat → Session → Prop}
    {err : Failure → Session → Prop} (hs : s.Sound shard config 1 hand)
    (h : Ends (onGrouping (body { s with buffers := bufferPool config 0 }
        ⟨shard, config.bufferSize⟩)) { s with buffers := bufferPool config 0 }
      (fun n t => ok n { t with buffers := bufferPool config 1, zeroCount := none })
      (fun e t => err e { t with buffers := bufferPool config 1, zeroCount := none })) :
    Ends (regroup body) s ok err := by
  refine ends_withBuffers hs (ends_bind (ends_get (ends_finally ?_)))
  exact h.mono (fun n t ht => ends_modify ht) fun e t ht => ends_modify ht

/-- A regroup may use the stats of the session. -/
theorem serves_regroup {body : Session → Feed → Pass Nat} {ok : Nat → Grouping → Prop}
    (hs : s.Sound shard config 1 hand)
    (h : ∀ t : Session, t.stats = s.stats → (body t ⟨shard, config.bufferSize⟩).Ensures s.grouping
      (fun n g' => g'.WellFormed shard.numDocs ∧ ok n g')
      fun _ g' => s.grouping.Unmoved shard.numDocs g') :
    Serves shard config 1 hand s (regroup body) s ok := by
  have hlent := hs.withFree 0
  have hkept : s.Kept { s with buffers := bufferPool config 0 } := ⟨fun _ => rfl, rfl, rfl, rfl⟩
  refine ends_regroup hs
    ((serves_onGrouping hlent hkept (h { s with buffers := bufferPool config 0 } rfl)).mono ?_ ?_)
  · rintro n t ⟨ht, hok⟩
    exact ⟨sound_forget (ht.withFree 1) none, hok⟩
  · rintro (e | _) t ht
    · obtain ⟨ht, hk⟩ := ht
      exact ⟨sound_forget (ht.withFree 1) none, hk.get?_eq, hk.numGroups_eq, hk.stats_eq,
        hk.metrics_eq⟩
    · trivial

end Call

end Cohort
