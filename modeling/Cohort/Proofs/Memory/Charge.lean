import Mathlib.Algebra.GroupWithZero.Nat
import Mathlib.Order.MinMax
import Mathlib.Tactic.SplitIfs
import Cohort.Memory.Buffers
import Cohort.Proofs.Outcome

/-!
# Charges — what claiming and releasing do to a coherent ledger

`Ledger.Coherent` is what every move keeps: the account is within its limit and its pool holds at
least as much as the account does, so bytes that were claimed can always be given back.
`Charge.Secures x b ok broken`: `x` leaves `b` more bytes claimed when it succeeds and nothing when
it is refused, and breaks only if `broken`. `Charge.Yields x ok` is about the values alone.
-/

namespace Cohort.Memory

namespace Ledger

structure Coherent (l : Ledger) : Prop where
  used_le_peak : l.own.used ≤ l.own.peak
  peak_le_limit : l.own.peak ≤ l.own.limit
  used_le_pool : ∀ p ∈ l.pool, l.own.used ≤ p.used
  pool_le_limit : ∀ p ∈ l.pool, p.used ≤ p.limit

theorem coherent_fresh (limit : Nat) (pool : Option Nat) : (fresh limit pool).Coherent := by
  refine ⟨le_rfl, Nat.zero_le _, ?_, ?_⟩ <;>
  · intro p hp
    obtain ⟨n, -, rfl⟩ := Option.map_eq_some_iff.mp hp
    exact Nat.zero_le _

variable {l l' : Ledger} {b : Nat}

theorem limit_claim? (hl : l.claim? b = some l') : l'.own.limit = l.own.limit := by
  unfold Ledger.claim? at hl
  split_ifs at hl <;> cases hl <;> rfl

theorem limit_release? (hl : l.release? b = some l') : l'.own.limit = l.own.limit := by
  unfold Ledger.release? at hl
  split_ifs at hl <;> cases hl <;> rfl

theorem Coherent.claim? (h : l.Coherent) (hl : l.claim? b = some l') :
    l'.Coherent ∧ l'.used = l.used + b := by
  unfold Ledger.claim? at hl
  split_ifs at hl with hb hroom
  · cases hl
    exact ⟨h, by omega⟩
  · cases hl
    simp only [hasRoom, Account.hasRoom, Bool.and_eq_true, decide_eq_true_eq,
      Option.all_eq_true] at hroom
    refine ⟨⟨?_, ?_, ?_, ?_⟩, rfl⟩
    · exact le_max_right _ _
    · exact max_le h.peak_le_limit hroom.1
    · intro p hp
      obtain ⟨q, hq, rfl⟩ := Option.map_eq_some_iff.mp hp
      have := h.used_le_pool q hq
      simp only [Account.charge]
      omega
    · intro p hp
      obtain ⟨q, hq, rfl⟩ := Option.map_eq_some_iff.mp hp
      exact hroom.2 q hq

/-- Claimed bytes can be given back. -/
theorem Coherent.release? (h : l.Coherent) (hb : b ≤ l.used) :
    ∃ l', l.release? b = some l' ∧ l'.Coherent ∧ l'.used + b = l.used := by
  unfold Ledger.release?
  by_cases h0 : b = 0
  · exact ⟨l, by rw [if_pos h0], h, by omega⟩
  · have hroom : (decide (b ≤ l.own.used) && l.pool.all (b ≤ ·.used)) = true := by
      simp only [Bool.and_eq_true, decide_eq_true_eq, Option.all_eq_true]
      exact ⟨hb, fun p hp => le_trans hb (h.used_le_pool p hp)⟩
    refine ⟨⟨l.own.refund b, l.pool.map (·.refund b)⟩, by rw [if_neg h0, if_pos hroom], ?_, ?_⟩
    · refine ⟨?_, h.peak_le_limit, ?_, ?_⟩
      · exact le_trans (Nat.sub_le _ _) h.used_le_peak
      · intro p hp
        obtain ⟨q, hq, rfl⟩ := Option.map_eq_some_iff.mp hp
        exact Nat.sub_le_sub_right (h.used_le_pool q hq) b
      · intro p hp
        obtain ⟨q, hq, rfl⟩ := Option.map_eq_some_iff.mp hp
        exact le_trans (Nat.sub_le _ _) (h.pool_le_limit q hq)
    · exact Nat.sub_add_cancel hb

/-- So can any number of claims that fit together. -/
theorem Coherent.releaseAll (h : l.Coherent) (bs : List Nat) (hb : bs.sum ≤ l.used) :
    ∃ l', bs.foldlM Ledger.release? l = some l' ∧ l'.Coherent ∧ l'.used + bs.sum = l.used := by
  induction bs generalizing l with
  | nil => exact ⟨l, rfl, h, rfl⟩
  | cons b bs ih =>
    rw [List.sum_cons] at hb
    obtain ⟨l1, hl1, h1, hused1⟩ := h.release? (b := b) (by omega)
    obtain ⟨l2, hl2, h2, hused2⟩ := ih h1 (by omega)
    refine ⟨l2, ?_, h2, ?_⟩
    · rw [List.foldlM_cons, hl1]
      exact hl2
    · rw [List.sum_cons]
      omega

end Ledger

variable {α β : Type} {l : Ledger} {b : Nat} {ok : Unit → Ledger → Prop}
  {err : Failure → Ledger → Prop}

theorem ends_claim (h : l.Coherent)
    (hok : ∀ l' : Ledger, l'.Coherent → l'.used = l.used + b → l'.own.limit = l.own.limit →
      ok () l')
    (herr : err (.refused (.outOfMemory (l.shortage b))) l) : Ends (claim b) l ok err := by
  unfold Ends claim
  cases hl : l.claim? b with
  | none => exact herr
  | some l' =>
    obtain ⟨h1, h2⟩ := h.claim? hl
    exact hok l' h1 h2 (Ledger.limit_claim? hl)

theorem ends_release (h : l.Coherent) (hb : b ≤ l.used)
    (hok : ∀ l' : Ledger, l'.Coherent → l'.used + b = l.used → l'.own.limit = l.own.limit →
      ok () l') :
    Ends (release b) l ok err := by
  obtain ⟨l', hl, h1, h2⟩ := h.release? hb
  unfold Ends release
  rw [hl]
  exact hok l' h1 h2 (Ledger.limit_release? hl)

/-- What a claim that went through leaves. -/
theorem claim_ok (h : l.Coherent) {l' : Ledger} (hl : claim b l = .ok () l') :
    l'.Coherent ∧ l'.used = l.used + b := by
  unfold claim at hl
  split at hl
  · rename_i hclaim
    cases hl
    exact h.claim? hclaim
  · cases hl

/-- What a release that went through leaves. -/
theorem release_ok (h : l.Coherent) (hb : b ≤ l.used) {l' : Ledger}
    (hl : release b l = .ok () l') : l'.Coherent ∧ l'.used + b = l.used := by
  obtain ⟨m, hm, hcoh, hused⟩ := h.release? hb
  unfold release at hl
  rw [hm] at hl
  cases hl
  exact ⟨hcoh, hused⟩

/-- A release of any number of bytes works or breaks. -/
theorem ends_release_or_broken (hok : ∀ l' : Ledger, ok () l') (herr : err .broken l) :
    Ends (release b) l ok err := by
  unfold Ends release
  cases l.release? b with
  | none => exact herr
  | some l' => exact hok l'

/-- A new pool has claimed the bytes of its one set. -/
theorem BufferPool.create_ok {size maxPooled : Nat} {p : BufferPool} {l' : Ledger}
    (h : create size maxPooled l = .ok p l') : l.claim? (bytesFor size) = some l' ∧
      p = ⟨size, max 1 maxPooled, 1, bytesFor size⟩ := by
  have hends : Ends (create size maxPooled) l
      (fun p l' => l.claim? (bytesFor size) = some l' ∧
        p = ⟨size, max 1 maxPooled, 1, bytesFor size⟩) fun _ _ => True := by
    unfold create
    split_ifs
    · exact ends_bind (ends_throw trivial)
    · refine ends_bind ?_
      unfold Ends claim
      cases l.claim? (bytesFor size) with
      | none => trivial
      | some l' => exact ⟨rfl, rfl⟩
  exact hends.ok_of h

namespace Charge

/-- `x` gives a value that satisfies `ok`, claims `b` bytes and keeps them, or is refused and keeps
none; a check breaks only if `broken`. -/
def Secures (x : Charge α) (b : Nat) (ok : α → Prop) (broken : Prop) : Prop :=
  ∀ l : Ledger, l.Coherent →
    Ends x l (fun a l' => ok a ∧ l'.Coherent ∧ l'.used = l.used + b)
      (OnFailure (fun _ l' => l'.Coherent ∧ l'.used = l.used) broken)

variable {ok : α → Prop} {broken : Prop}

theorem secures_pure {a : α} (h : ok a) : Secures (pure a) 0 ok broken := by
  intro l hl
  exact ends_pure ⟨h, hl, rfl⟩

theorem secures_orBroken {o : Option α} (hok : ∀ a, o = some a → ok a)
    (hnone : o = none → broken) : Secures (orBroken o) 0 ok broken := by
  intro l hl
  cases o with
  | none => exact ends_throw (hnone rfl)
  | some a => exact ends_pure ⟨hok a rfl, hl, rfl⟩

/-- `holding` gives its bytes back when the rest is refused. -/
theorem secures_holding {b : Nat} {body : Unit → Charge α}
    (hb : Secures (body ()) 0 ok broken) : Secures (holding b body) b ok broken := by
  intro l h
  refine ends_bind (ends_claim h (fun l1 h1 hu1 _ => ends_catch ?_) ⟨h, rfl⟩)
  refine (hb l1 h1).mono ?_ ?_
  · rintro a l2 ⟨ha, h2, hu2⟩
    exact ⟨ha, h2, by omega⟩
  · rintro (e | _) l2 he
    · obtain ⟨h2, hu2⟩ := he
      refine ends_bind (ends_release h2 (by omega) fun l3 h3 hu3 _ => ends_throw ?_)
      exact ⟨h3, by omega⟩
    · exact ends_bind (ends_release_or_broken (fun l3 => ends_throw he) he)

/-! ### Values alone -/

/-- `x` only gives values that satisfy `ok`, whatever the ledger has room for. -/
def Yields (x : Charge α) (ok : α → Prop) : Prop :=
  ∀ l : Ledger, Ends x l (fun a _ => ok a) fun _ _ => True

theorem yields_pure {a : α} (h : ok a) : Yields (pure a) ok := fun _ => ends_pure h

theorem yields_orBroken {o : Option α} (h : ∀ a, o = some a → ok a) : Yields (orBroken o) ok :=
  fun _ => ends_orBroken h fun _ => trivial

theorem yields_release {b : Nat} : Yields (release b) fun _ => True :=
  fun _ => ends_release_or_broken (fun _ => trivial) trivial

theorem yields_bind {x : Charge β} {f : β → Charge α} {mid : β → Prop} (hx : Yields x mid)
    (hf : ∀ a, mid a → Yields (f a) ok) : Yields (x >>= f) ok :=
  fun l => ends_bind ((hx l).mono (fun a l' ha => hf a ha l') fun _ _ he => he)

theorem yields_holding {b : Nat} {body : Unit → Charge α} (h : Yields (body ()) ok) :
    Yields (holding b body) ok := by
  intro l
  refine ends_bind ?_
  unfold Ends claim
  cases l.claim? b with
  | none => trivial
  | some l' =>
    refine ends_catch ((h l').mono (fun _ _ ha => ha) fun e l'' _ => ends_bind ?_)
    exact ends_release_or_broken (fun _ => ends_throw trivial) trivial

/-! ### The limit -/

/-- However `x` ends, the account has the limit that it had. -/
def KeepsLimit (x : Charge α) : Prop :=
  ∀ l : Ledger, Ends x l (fun _ l' => l'.own.limit = l.own.limit)
    fun _ l' => l'.own.limit = l.own.limit

theorem keepsLimit_pure (a : α) : KeepsLimit (pure a) := fun _ => ends_pure rfl

theorem keepsLimit_throw (e : Failure) : KeepsLimit (throw e : Charge α) := fun _ => ends_throw rfl

theorem keepsLimit_claim (b : Nat) : KeepsLimit (claim b) := by
  intro l
  unfold Ends claim
  cases hl : l.claim? b with
  | none => exact rfl
  | some l' => exact Ledger.limit_claim? hl

theorem keepsLimit_release (b : Nat) : KeepsLimit (release b) := by
  intro l
  unfold Ends release
  cases hl : l.release? b with
  | none => exact rfl
  | some l' => exact Ledger.limit_release? hl

theorem keepsLimit_bind {x : Charge β} {f : β → Charge α} (hx : KeepsLimit x)
    (hf : ∀ b, KeepsLimit (f b)) : KeepsLimit (x >>= f) := by
  intro l
  refine ends_bind ((hx l).mono (fun b l' hl' => ?_) fun _ _ he => he)
  exact (hf b l').mono (fun _ _ h => h.trans hl') fun _ _ h => h.trans hl'

theorem keepsLimit_orRefused (r : Except Error α) : KeepsLimit (orRefused r) :=
  fun _ => ends_orRefused (fun _ _ => rfl) fun _ _ => rfl

end Charge

end Cohort.Memory
