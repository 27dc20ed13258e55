import Cohort.Proofs.Alike
import Cohort.Proofs.Memory.Charge

/-!
# Footing — charging two ledgers alike

A ledger is `Wider` than another if it has room for every claim that the other has room for, which
claims and releases of the same bytes keep. `Footing strict` asks for that only of strict runs; two
runs that may both run out of memory can be on any ledgers.
-/

namespace Cohort.Memory

namespace Ledger

/-- `l'` has at least as much room as `l`, of its own and in its pool. -/
structure Wider (l l' : Ledger) : Prop where
  own : l.own.remaining ≤ l'.own.remaining
  pool : ∀ p' ∈ l'.pool, ∃ p ∈ l.pool, p.remaining ≤ p'.remaining

variable {l l' m m' : Ledger} {b : Nat}

theorem hasRoom_iff (hb : b ≠ 0) : l.hasRoom b = true ↔
    b ≤ l.own.remaining ∧ ∀ p ∈ l.pool, b ≤ p.remaining := by
  simp only [hasRoom, Account.hasRoom, Account.remaining, Bool.and_eq_true, decide_eq_true_eq,
    Option.all_eq_true]
  constructor
  · rintro ⟨hown, hpool⟩
    refine ⟨by omega, fun p hp => ?_⟩
    have := hpool p hp
    omega
  · rintro ⟨hown, hpool⟩
    refine ⟨by omega, fun p hp => ?_⟩
    have := hpool p hp
    omega

/-- A claim goes through if and only if both have as much left, or nothing is claimed. -/
theorem claim?_isSome : (l.claim? b).isSome ↔
    b = 0 ∨ b ≤ l.own.remaining ∧ ∀ p ∈ l.pool, b ≤ p.remaining := by
  unfold claim?
  by_cases h0 : b = 0
  · simp [h0]
  · rw [if_neg h0, ← hasRoom_iff h0]
    by_cases hroom : l.hasRoom b <;> simp [h0, hroom]

/-- What can be claimed of a ledger can be claimed of a wider one. -/
theorem Wider.claim? (h : l.Wider l') (hm : l.claim? b = some m) :
    ∃ m', l'.claim? b = some m' ∧ m.Wider m' := by
  unfold Ledger.claim? at hm ⊢
  by_cases h0 : b = 0
  · rw [if_pos h0] at hm ⊢
    cases hm
    exact ⟨l', rfl, h⟩
  rw [if_neg h0] at hm ⊢
  split_ifs at hm with hroom
  cases hm
  rw [hasRoom_iff h0] at hroom
  have hroom' : l'.hasRoom b = true := by
    refine (hasRoom_iff h0).mpr ⟨Nat.le_trans hroom.1 h.own, fun p' hp' => ?_⟩
    obtain ⟨p, hp, hle⟩ := h.pool p' hp'
    exact Nat.le_trans (hroom.2 p hp) hle
  have hcharge : ∀ {a a' : Account}, a.remaining ≤ a'.remaining →
      (a.charge b).remaining ≤ (a'.charge b).remaining := by
    intro a a' hle
    simp only [Account.remaining, Account.charge] at hle ⊢
    omega
  refine ⟨_, by rw [if_pos hroom'], hcharge h.own, fun p' hp' => ?_⟩
  obtain ⟨q', hq', rfl⟩ := Option.map_eq_some_iff.mp hp'
  obtain ⟨q, hq, hle⟩ := h.pool q' hq'
  exact ⟨q.charge b, Option.map_eq_some_iff.mpr ⟨q, hq, rfl⟩, hcharge hle⟩

/-- Bytes that are given back to both keep one wider than the other. -/
theorem Wider.release? (h : l.Wider l') (hl' : l'.Coherent) (hm : l.release? b = some m)
    (hm' : l'.release? b = some m') : m.Wider m' := by
  unfold Ledger.release? at hm hm'
  by_cases h0 : b = 0
  · rw [if_pos h0] at hm hm'
    cases hm
    cases hm'
    exact h
  rw [if_neg h0] at hm hm'
  split_ifs at hm with hheld
  split_ifs at hm' with hheld'
  cases hm
  cases hm'
  simp only [Bool.and_eq_true, decide_eq_true_eq, Option.all_eq_true] at hheld'
  have hrefund : ∀ {a a' : Account}, a.remaining ≤ a'.remaining → b ≤ a'.used →
      a'.used ≤ a'.limit → (a.refund b).remaining ≤ (a'.refund b).remaining := by
    intro a a' hle hb hlimit
    simp only [Account.remaining, Account.refund] at hle ⊢
    omega
  refine ⟨hrefund h.own hheld'.1 (Nat.le_trans hl'.used_le_peak hl'.peak_le_limit), ?_⟩
  intro p' hp'
  obtain ⟨q', hq', rfl⟩ := Option.map_eq_some_iff.mp hp'
  obtain ⟨q, hq, hle⟩ := h.pool q' hq'
  exact ⟨q.refund b, Option.map_eq_some_iff.mpr ⟨q, hq, rfl⟩,
    hrefund hle (hheld'.2 q' hq') (hl'.pool_le_limit q' hq')⟩

/-- Strict runs need a ledger that is wider. -/
def Footing (strict : Prop) (l l' : Ledger) : Prop := strict → l.Wider l'

end Ledger

open Ledger

variable {α β : Type} {strict : Prop} {l l' : Ledger} {b b' : Nat}

theorem alike_claim (h : Footing strict l l') (hb : strict → b' = b) :
    Alike strict (Footing strict) (claim b l) (claim b' l') := by
  unfold claim
  cases hm : l.claim? b with
  | none => exact .leftShort
  | some m =>
    cases hm' : l'.claim? b' with
    | none =>
      refine .rightShort fun hs => ?_
      obtain ⟨m', hclaim, -⟩ := (h hs).claim? hm
      rw [hb hs, hclaim] at hm'
      cases hm'
    | some m' =>
      refine .ok fun hs => ?_
      obtain ⟨n, hclaim, hwider⟩ := (h hs).claim? hm
      rw [hb hs, hclaim] at hm'
      cases hm'
      exact hwider

/-- Bytes that a ledger holds can be given back. -/
theorem exists_release (hl : l.Coherent) (hb : b ≤ l.used) : ∃ m, release b l = .ok () m := by
  obtain ⟨m, hm, -⟩ := hl.release? hb
  exact ⟨m, by unfold release; rw [hm]⟩

/-- Bytes that were given back to both ledgers. -/
theorem footing_release {m m' : Ledger} (h : Footing strict l l') (hl' : l'.Coherent)
    (hm : release b l = .ok () m) (hm' : release b' l' = .ok () m') (hb : strict → b' = b) :
    Footing strict m m' := by
  intro hs
  rw [hb hs] at hm'
  unfold Memory.release at hm hm'
  split at hm
  · rename_i hrelease
    split at hm'
    · rename_i hrelease'
      cases hm
      cases hm'
      exact (h hs).release? hl' hrelease hrelease'
    · cases hm'
  · cases hm

/-- Giving bytes back works or breaks. -/
theorem release_cases (b : Nat) (l : Ledger) :
    (∃ m, release b l = .ok () m) ∨ release b l = .error .broken l := by
  unfold release
  cases l.release? b with
  | none => exact .inr rfl
  | some m => exact .inl ⟨m, rfl⟩

theorem alike_release (h : Footing strict l l') (hl : l.Coherent) (hl' : l'.Coherent)
    (hb : b ≤ l.used) (hb' : b' ≤ l'.used) (heq : strict → b' = b) :
    Alike strict (Footing strict) (release b l) (release b' l') := by
  obtain ⟨m, hm⟩ := exists_release hl hb
  obtain ⟨m', hm'⟩ := exists_release hl' hb'
  rw [hm, hm']
  exact .ok (footing_release h hl' hm hm' heq)

/-! ### Charges run twice -/

namespace Charge

/-- Two runs of `x` end alike. -/
def Repeats (strict : Prop) (x : Charge α) : Prop :=
  ∀ l l' : Ledger, l.Coherent → l'.Coherent → Footing strict l l' →
    Alike strict (Footing strict) (x l) (x l')

theorem repeats_pure (a : α) : Repeats strict (pure a : Charge α) :=
  fun _ _ _ _ h => alike_pure h

theorem repeats_orBroken (o : Option α) : Repeats strict (orBroken o : Charge α) :=
  fun _ _ _ _ h => alike_orBroken h

variable {ok : α → Prop} {broken : Prop}

/-- A refusal is passed on once the bytes that are held are given back. -/
theorem exists_release_refused (hl : l.Coherent) (hb : b ≤ l.used) (e : Error) :
    ∃ m, (release b >>= fun _ => (throw (.refused e) : Charge α)) l = .error (.refused e) m := by
  obtain ⟨m, hm⟩ := exists_release hl hb
  refine ⟨m, ?_⟩
  show EStateM.bind _ _ l = _
  unfold EStateM.bind
  rw [hm]
  rfl

/-- A broken check is passed on, whatever can be given back. -/
theorem exists_release_broken (b : Nat) (l : Ledger) :
    ∃ m, (release b >>= fun _ => (throw .broken : Charge α)) l = .error .broken m := by
  show ∃ m, EStateM.bind _ _ l = _
  unfold EStateM.bind
  rcases release_cases b l with ⟨m, hm⟩ | hm
  · rw [hm]
    exact ⟨m, rfl⟩
  · rw [hm]
    exact ⟨l, rfl⟩

/-- A body that is refused still holds the bytes that were claimed for it. -/
theorem Secures.holds {body : Charge α} (h : Secures body 0 ok broken) {m t : Ledger}
    (hl : l.Coherent) (hm : claim b l = .ok () m) {e : Error}
    (ht : body m = .error (.refused e) t) : t.Coherent ∧ b ≤ t.used := by
  obtain ⟨hcoh, hused⟩ := claim_ok hl hm
  obtain ⟨hcoh', hused'⟩ := (h m hcoh).err_of ht
  exact ⟨hcoh', by omega⟩

theorem repeats_holding {body : Unit → Charge α} (hbody : Secures (body ()) 0 ok broken)
    (h : Repeats strict (body ())) : Repeats strict (holding b body) := by
  intro l l' hl hl' hfoot
  refine alike_bind (alike_claim hfoot fun _ => rfl) fun _ m m' hm hclaim hclaim' => ?_
  have halike := h m m' (claim_ok hl hclaim).1 (claim_ok hl' hclaim').1 hm
  refine alike_catch halike (fun e t t' hR ht ht' => ?_) (fun t t' => ?_) (fun e t ht => ?_)
    fun e t ht => ?_
  · obtain ⟨hcoh, hheld⟩ := hbody.holds hl hclaim ht
    obtain ⟨hcoh', hheld'⟩ := hbody.holds hl' hclaim' ht'
    exact alike_bind (alike_release hR hcoh hcoh' hheld hheld' fun _ => rfl)
      fun _ n n' hn _ _ => alike_throw hn
  · obtain ⟨w, hw⟩ := @exists_release_broken α b t
    obtain ⟨w', hw'⟩ := @exists_release_broken α b t'
    show Alike strict _ (bind (release b) _ t) (bind (release b) _ t')
    rw [hw, hw']
    exact .broken
  · obtain ⟨hcoh, hheld⟩ := hbody.holds hl hclaim ht
    exact exists_release_refused hcoh hheld e
  · obtain ⟨hcoh, hheld⟩ := hbody.holds hl' hclaim' ht
    exact exists_release_refused hcoh hheld e

end Charge

end Cohort.Memory
