import Cohort.Proofs.Memory.Footing

/-!
# Peaks — what a computation holds in the end and what it needs on the way

`Ledger.Spent l l' held need`: from `l` to `l'` the account and its pool came to hold `held` bytes
more, and the account held up to `need` more on the way. `Charge.Costs x held need`: `x` goes
through, at that cost, only if `need` bytes are left, and is refused only if they are not; then it
holds nothing in the end. Computations that run one after the other need as much as the one that
needs more.
-/

namespace Cohort.Memory

namespace Ledger

variable {l l1 l2 l' : Ledger} {b held held' need need' n : Nat}

/-- The account and its pool have `n` bytes left each. -/
def Affords (l : Ledger) (n : Nat) : Prop :=
  n ≤ l.own.remaining ∧ ∀ p ∈ l.pool, n ≤ p.remaining

theorem Affords.mono (h : l.Affords n) (hle : need ≤ n) : l.Affords need :=
  ⟨Nat.le_trans hle h.1, fun p hp => Nat.le_trans hle (h.2 p hp)⟩

theorem affords_zero (l : Ledger) : l.Affords 0 := ⟨Nat.zero_le _, fun _ _ => Nat.zero_le _⟩

theorem affords_max : l.Affords (max n need) ↔ l.Affords n ∧ l.Affords need := by
  unfold Affords
  simp only [Nat.max_le]
  constructor
  · rintro ⟨⟨hn, hneed⟩, hpool⟩
    exact ⟨⟨hn, fun p hp => (hpool p hp).1⟩, hneed, fun p hp => (hpool p hp).2⟩
  · rintro ⟨⟨hn, hpool⟩, hneed, hpool'⟩
    exact ⟨⟨hn, hneed⟩, fun p hp => ⟨hpool p hp, hpool' p hp⟩⟩

/-- `held` bytes more are held, and up to `need` more were on the way. -/
structure Spent (l l' : Ledger) (held need : Nat) : Prop where
  coherent : l'.Coherent
  limit_eq : l'.own.limit = l.own.limit
  used_eq : l'.own.used = l.own.used + held
  peak_eq : l'.own.peak = max l.own.peak (l.own.used + need)
  pool_mem : ∀ p ∈ l.pool, ∃ p' ∈ l'.pool, p'.limit = p.limit ∧ p'.used = p.used + held
  mem_pool : ∀ p' ∈ l'.pool, ∃ p ∈ l.pool, p'.limit = p.limit ∧ p'.used = p.used + held

theorem Coherent.spent_refl (h : l.Coherent) : l.Spent l 0 0 :=
  ⟨h, rfl, rfl, (Nat.max_eq_left h.used_le_peak).symm, fun p hp => ⟨p, hp, rfl, rfl⟩,
    fun p hp => ⟨p, hp, rfl, rfl⟩⟩

/-- One after the other, the second on top of what the first left held. -/
theorem Spent.trans (h : l.Spent l1 held need) (h' : l1.Spent l2 held' need') :
    l.Spent l2 (held + held') (max need (held + need')) := by
  refine ⟨h'.coherent, h'.limit_eq.trans h.limit_eq, ?_, ?_, fun p hp => ?_, fun p2 hp2 => ?_⟩
  · rw [h'.used_eq, h.used_eq, Nat.add_assoc]
  · rw [h'.peak_eq, h.peak_eq, h.used_eq]
    omega
  · obtain ⟨p1, hp1, hlimit, hused⟩ := h.pool_mem p hp
    obtain ⟨p2, hp2, hlimit', hused'⟩ := h'.pool_mem p1 hp1
    exact ⟨p2, hp2, hlimit'.trans hlimit, by omega⟩
  · obtain ⟨p1, hp1, hlimit', hused'⟩ := h'.mem_pool p2 hp2
    obtain ⟨p, hp, hlimit, hused⟩ := h.mem_pool p1 hp1
    exact ⟨p, hp, hlimit'.trans hlimit, by omega⟩

/-- One after the other, the first without anything left held. -/
theorem Spent.then (h : l.Spent l1 0 need) (h' : l1.Spent l2 held' need') :
    l.Spent l2 held' (max need need') := by
  have hall := h.trans h'
  rwa [Nat.zero_add, Nat.zero_add] at hall

/-- What is left after `held` of the bytes that were left. -/
theorem Spent.affords_iff (h : l.Spent l' held need) (ha : l.Affords held) :
    l'.Affords n ↔ l.Affords (held + n) := by
  obtain ⟨hown, hpool⟩ := ha
  unfold Affords
  simp only [Account.remaining] at hown hpool ⊢
  rw [h.limit_eq, h.used_eq]
  constructor
  · rintro ⟨hn, hn'⟩
    refine ⟨by omega, fun p hp => ?_⟩
    obtain ⟨p', hp', hlimit, hused⟩ := h.pool_mem p hp
    have := hn' p' hp'
    have := hpool p hp
    omega
  · rintro ⟨hn, hn'⟩
    refine ⟨by omega, fun p' hp' => ?_⟩
    obtain ⟨p, hp, hlimit, hused⟩ := h.mem_pool p' hp'
    have := hn' p hp
    omega

theorem Coherent.spent_claim? (h : l.Coherent) (hl : l.claim? b = some l') : l.Spent l' b b := by
  have hcoh := (h.claim? hl).1
  unfold Ledger.claim? at hl
  split_ifs at hl with hb hroom
  · cases hl
    rw [hb]
    exact h.spent_refl
  · cases hl
    refine ⟨hcoh, rfl, rfl, rfl, fun p hp => ?_, fun p' hp' => ?_⟩
    · exact ⟨p.charge b, Option.mem_map_of_mem _ hp, rfl, rfl⟩
    · obtain ⟨p, hp, rfl⟩ := Option.map_eq_some_iff.mp hp'
      exact ⟨p, hp, rfl, rfl⟩

/-- Claims are refused only if the bytes are not left. -/
theorem claim?_isSome_iff : (l.claim? b).isSome ↔ l.Affords b := by
  rw [claim?_isSome]
  refine ⟨fun hb => ?_, .inr⟩
  rcases hb with rfl | hb
  · exact l.affords_zero
  · exact hb

/-- Bytes that are held more can be given back: only the high-water mark remains. -/
theorem Spent.exists_release? (hs : l.Spent l1 b need) :
    ∃ l2, l1.release? b = some l2 ∧ l.Spent l2 0 need := by
  have hused := hs.used_eq
  obtain ⟨l2, hl2, hcoh, -⟩ := hs.coherent.release? (b := b) (show b ≤ l1.own.used by omega)
  refine ⟨l2, hl2, ?_⟩
  unfold Ledger.release? at hl2
  split_ifs at hl2 with hb hheld
  · cases hl2
    rwa [hb] at hs
  · cases hl2
    refine ⟨hcoh, hs.limit_eq, ?_, hs.peak_eq, fun p hp => ?_, fun p' hp' => ?_⟩
    · show l1.own.used - b = _
      omega
    · obtain ⟨p1, hp1, hlimit, hused⟩ := hs.pool_mem p hp
      refine ⟨p1.refund b, Option.mem_map_of_mem _ hp1, hlimit, ?_⟩
      show p1.used - b = _
      omega
    · obtain ⟨p1, hp1, rfl⟩ := Option.map_eq_some_iff.mp hp'
      obtain ⟨p, hp, hlimit, hused⟩ := hs.mem_pool p1 hp1
      refine ⟨p, hp, hlimit, ?_⟩
      show p1.used - b = _
      omega

end Ledger

namespace Charge

open Ledger

variable {α : Type} {l l1 : Ledger} {b need : Nat}

/-- `x` goes through, to `held` bytes more and by way of `need` more, only if these are left, and is
refused only if they are not, for lack of memory and with nothing more held in the end. -/
def Costs (x : Charge α) (held need : Nat) : Prop :=
  ∀ l : Ledger, l.Coherent → Ends x l (fun _ l' => l.Affords need ∧ l.Spent l' held need)
    (OnRefusal fun e l' => (∃ s, e = .outOfMemory s) ∧ ¬ l.Affords need ∧ ∃ k, l.Spent l' 0 k)

theorem costs_pure (a : α) : Costs (pure a) 0 0 :=
  fun l h => ends_pure ⟨l.affords_zero, h.spent_refl⟩

theorem costs_orBroken (o : Option α) : Costs (orBroken o) 0 0 :=
  fun l h => ends_orBroken (fun _ _ => ⟨l.affords_zero, h.spent_refl⟩) fun _ => trivial

theorem ends_release_spent {ok : Unit → Ledger → Prop} {err : Failure → Ledger → Prop}
    (hs : l.Spent l1 b need) (hok : ∀ l2, l.Spent l2 0 need → ok () l2) :
    Ends (release b) l1 ok err := by
  obtain ⟨l2, hl2, hs2⟩ := hs.exists_release?
  unfold Ends release
  rw [hl2]
  exact hok l2 hs2

/-- What is held for the body to run is needed on top of what the body needs. -/
theorem costs_holding {body : Unit → Charge α} (h : Costs (body ()) 0 need) :
    Costs (holding b body) b (b + need) := by
  intro l hl
  refine ends_bind ?_
  unfold Ends claim
  cases hclaim : l.claim? b with
  | none =>
    have hshort : ¬ l.Affords b := fun ha => by
      rw [← claim?_isSome_iff, hclaim] at ha
      cases ha
    exact ⟨⟨_, rfl⟩, fun ha => hshort (ha.mono (Nat.le_add_right _ _)), 0, hl.spent_refl⟩
  | some l1 =>
    have ha : l.Affords b := claim?_isSome_iff.mp (hclaim ▸ rfl)
    have hs := hl.spent_claim? hclaim
    refine ends_catch ((h l1 hs.coherent).mono ?_ ?_)
    · rintro a l2 ⟨hneed, hs2⟩
      have hall := hs.trans hs2
      rw [Nat.max_eq_right (Nat.le_add_right _ _)] at hall
      exact ⟨(hs.affords_iff ha).mp hneed, hall⟩
    · rintro (e | _) l2 he
      · obtain ⟨hmemory, hneed, k, hs2⟩ := he
        refine ends_bind (ends_release_spent (hs.trans hs2) fun l3 hs3 => ends_throw ?_)
        exact ⟨hmemory, fun hsum => hneed ((hs.affords_iff ha).mpr hsum), _, hs3⟩
      · exact ends_bind (ends_release_or_broken (fun _ => ends_throw trivial) trivial)

end Charge

end Cohort.Memory
