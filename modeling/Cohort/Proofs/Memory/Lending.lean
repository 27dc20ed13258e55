import Cohort.Proofs.Memory.Peak

/-!
# Lending — a pool of buffers whose sets are out with callers

`Lending` is a pool with its ledger, the number of sets that are out and the bytes of the ledger that
are held for other things. `Lending.Sound` is the invariant of all runs: what the pool holds pays for
the sets that are free and the sets that are out, though the pool itself only counts the free ones.
-/

namespace Cohort.Memory

/-- Between the ledgers, the account and its pool were given back `b` bytes. -/
structure Ledger.Frees (l l' : Ledger) (b : Nat) : Prop where
  own : l'.own.used + b = l.own.used
  pool : ∀ root ∈ l.pool, ∃ root' ∈ l'.pool, root'.used + b = root.used

theorem Ledger.Coherent.exists_frees {l : Ledger} {b : Nat} (h : l.Coherent) (hb : b ≤ l.used) :
    ∃ l', l.release? b = some l' ∧ l'.Coherent ∧ l.Frees l' b := by
  obtain ⟨l', hl', hcoh, hused⟩ := h.release? hb
  refine ⟨l', hl', hcoh, hused, fun root hroot => ?_⟩
  have hle : b ≤ root.used := Nat.le_trans hb (h.used_le_pool root hroot)
  unfold Ledger.release? at hl'
  split_ifs at hl' with h0
  · cases hl'
    exact ⟨root, hroot, by omega⟩
  · cases hl'
    exact ⟨root.refund b, Option.mem_map_of_mem _ hroot, Nat.sub_add_cancel hle⟩

namespace BufferPool

/-- A free set is handed out as it is; otherwise the bytes of a new one are claimed. -/
theorem take_eq (p : BufferPool) (l : Ledger) : p.take l =
    if 0 < p.free then .ok { p with free := p.free - 1 } l
    else match l.claim? p.setBytes with
      | some l' => .ok { p with reserved := p.reserved + p.setBytes } l'
      | none => .error (.refused (.outOfMemory (l.shortage p.setBytes))) l := by
  unfold take
  split_ifs
  · rfl
  · show EStateM.bind (claim p.setBytes) _ l = _
    unfold EStateM.bind claim
    cases l.claim? p.setBytes <;> rfl

theorem giveBack_eq (p : BufferPool) (l : Ledger) : p.giveBack l =
    if p.free < p.maxPooled then .ok { p with free := p.free + 1 } l
    else if p.reserved < p.setBytes then .error .broken l
    else match l.release? p.setBytes with
      | some l' => .ok { p with reserved := p.reserved - p.setBytes } l'
      | none => .error .broken l := by
  unfold giveBack
  split_ifs
  · rfl
  · rfl
  · show EStateM.bind (release p.setBytes) _ l = _
    unfold EStateM.bind release
    cases l.release? p.setBytes <;> rfl

end BufferPool

structure Lending where
  pool : BufferPool
  ledger : Ledger
  /-- Sets that are out. -/
  out : Nat
  /-- Bytes of the ledger that are held for other things. -/
  others : Nat

namespace Lending

/-- A set is asked for, or one of those that are out comes back; or bytes are moved that are not
the pool's. -/
inductive Step : Lending → Lending → Prop
  | taken {x : Lending} {p : BufferPool} {l : Ledger} (h : x.pool.take x.ledger = .ok p l) :
      Step x ⟨p, l, x.out + 1, x.others⟩
  | refused {x : Lending} {e : Failure} {l : Ledger} (h : x.pool.take x.ledger = .error e l) :
      Step x { x with ledger := l }
  | returned {x : Lending} {p : BufferPool} {l : Ledger} (hout : 0 < x.out)
      (h : x.pool.giveBack x.ledger = .ok p l) : Step x ⟨p, l, x.out - 1, x.others⟩
  | claimed {x : Lending} {b : Nat} {l : Ledger} (h : x.ledger.claim? b = some l) :
      Step x { x with ledger := l, others := x.others + b }
  | released {x : Lending} {b : Nat} {l : Ledger} (hb : b ≤ x.others)
      (h : x.ledger.release? b = some l) :
      Step x { x with ledger := l, others := x.others - b }
  /-- Other accounts of the ledger's pool claim and release what is theirs. -/
  | elsewhere {x : Lending} {root root' : Account} (h : x.ledger.pool = some root)
      (hlimit : root'.limit = root.limit) (hlo : x.ledger.used ≤ root'.used)
      (hhi : root'.used ≤ root'.limit) :
      Step x { x with ledger := { x.ledger with pool := some root' } }

/-- What some run leads to from a new pool, over any coherent ledger. -/
inductive Reachable (size maxPooled : Nat) : Lending → Prop
  | create {p : BufferPool} {l l' : Ledger} (hl : l.Coherent)
      (h : BufferPool.create size maxPooled l = .ok p l') :
      Reachable size maxPooled ⟨p, l', 0, l.used⟩
  | step {x y : Lending} (hx : Reachable size maxPooled x) (h : Step x y) :
      Reachable size maxPooled y

/-- The bytes that the pool holds are those of its free sets and of the sets that are out. -/
structure Sound (size maxPooled : Nat) (x : Lending) : Prop where
  size_eq : x.pool.size = size
  maxPooled_eq : x.pool.maxPooled = max 1 maxPooled
  reserved_eq : x.pool.reserved = (x.pool.free + x.out) * x.pool.setBytes
  free_le : x.pool.free ≤ x.pool.maxPooled
  coherent : x.ledger.Coherent
  used_eq : x.ledger.used = x.others + x.pool.reserved

variable {size maxPooled : Nat} {x y : Lending}

theorem sound_create {p : BufferPool} {l l' : Ledger} (hl : l.Coherent)
    (h : BufferPool.create size maxPooled l = .ok p l') :
    Sound size maxPooled ⟨p, l', 0, l.used⟩ := by
  obtain ⟨hclaim, rfl⟩ := BufferPool.create_ok h
  obtain ⟨hcoh, hused⟩ := hl.claim? hclaim
  exact ⟨rfl, rfl, (Nat.one_mul _).symm, Nat.le_max_left 1 maxPooled, hcoh, hused⟩

/-- Handing out a free set moves it from one count to the other; a new one is paid for. -/
theorem Sound.take (hx : Sound size maxPooled x) {p : BufferPool} {l : Ledger}
    (h : x.pool.take x.ledger = .ok p l) : Sound size maxPooled ⟨p, l, x.out + 1, x.others⟩ := by
  have hreserved := hx.reserved_eq
  have hused := hx.used_eq
  rw [BufferPool.take_eq] at h
  split_ifs at h with hfree
  · cases h
    refine ⟨hx.size_eq, hx.maxPooled_eq, ?_, ?_, hx.coherent, hused⟩
    · show x.pool.reserved = (x.pool.free - 1 + (x.out + 1)) * x.pool.setBytes
      rw [hreserved, show x.pool.free - 1 + (x.out + 1) = x.pool.free + x.out by omega]
    · exact Nat.le_trans (Nat.sub_le _ _) hx.free_le
  · split at h
    · rename_i hclaim
      cases h
      obtain ⟨hcoh, hmore⟩ := hx.coherent.claim? hclaim
      refine ⟨hx.size_eq, hx.maxPooled_eq, ?_, hx.free_le, hcoh, ?_⟩
      · show x.pool.reserved + x.pool.setBytes = (x.pool.free + (x.out + 1)) * x.pool.setBytes
        rw [hreserved, ← Nat.add_assoc, Nat.succ_mul]
      · show l.used = x.others + (x.pool.reserved + x.pool.setBytes)
        omega
    · cases h

/-- The pool holds the bytes of every set that is out. -/
theorem Sound.setBytes_le (hx : Sound size maxPooled x) (hout : 0 < x.out) :
    x.pool.setBytes ≤ x.pool.reserved := by
  rw [hx.reserved_eq]
  exact Nat.le_mul_of_pos_left _ (by omega)

theorem Sound.giveBack (hx : Sound size maxPooled x) (hout : 0 < x.out) {p : BufferPool}
    {l : Ledger} (h : x.pool.giveBack x.ledger = .ok p l) :
    Sound size maxPooled ⟨p, l, x.out - 1, x.others⟩ := by
  have hreserved := hx.reserved_eq
  have hused := hx.used_eq
  have hset := hx.setBytes_le hout
  rw [BufferPool.giveBack_eq] at h
  split_ifs at h with hfree
  · cases h
    refine ⟨hx.size_eq, hx.maxPooled_eq, ?_, hfree, hx.coherent, hused⟩
    show x.pool.reserved = (x.pool.free + 1 + (x.out - 1)) * x.pool.setBytes
    rw [hreserved, show x.pool.free + 1 + (x.out - 1) = x.pool.free + x.out by omega]
  · split at h
    · rename_i hrelease
      cases h
      obtain ⟨l', hl', hcoh, hless⟩ := hx.coherent.release? (b := x.pool.setBytes) (by omega)
      rw [hrelease] at hl'
      cases hl'
      refine ⟨hx.size_eq, hx.maxPooled_eq, ?_, hx.free_le, hcoh, ?_⟩
      · show x.pool.reserved - x.pool.setBytes = (x.pool.free + (x.out - 1)) * x.pool.setBytes
        rw [hreserved, show x.pool.free + x.out = x.pool.free + (x.out - 1) + 1 by omega,
          Nat.succ_mul, Nat.add_sub_cancel]
      · show l.used = x.others + (x.pool.reserved - x.pool.setBytes)
        omega
    · cases h

/-- A set is refused only where none is free and the bytes are not left; nothing is changed then. -/
theorem take_error_iff {e : Failure} {l : Ledger} : x.pool.take x.ledger = .error e l ↔
    x.pool.free = 0 ∧ ¬ x.ledger.Affords x.pool.setBytes ∧
      e = .refused (.outOfMemory (x.ledger.shortage x.pool.setBytes)) ∧ l = x.ledger := by
  rw [BufferPool.take_eq, ← Ledger.claim?_isSome_iff]
  split_ifs with hfree
  · constructor
    · nofun
    · rintro ⟨h0, -⟩
      omega
  · have h0 : x.pool.free = 0 := by omega
    cases x.ledger.claim? x.pool.setBytes with
    | none => simp [h0, eq_comm]
    | some l' => simp

theorem Step.sound (hx : Sound size maxPooled x) (h : Step x y) : Sound size maxPooled y := by
  have hused := hx.used_eq
  cases h with
  | taken h => exact hx.take h
  | refused h =>
    obtain ⟨-, -, -, rfl⟩ := take_error_iff.mp h
    exact hx
  | returned hout h => exact hx.giveBack hout h
  | @claimed b l h =>
    obtain ⟨hcoh, hmore⟩ := hx.coherent.claim? h
    refine ⟨hx.size_eq, hx.maxPooled_eq, hx.reserved_eq, hx.free_le, hcoh, ?_⟩
    show l.used = x.others + b + x.pool.reserved
    omega
  | @released b l hb h =>
    obtain ⟨l', hl', hcoh, hless⟩ := hx.coherent.release? (b := b) (by omega)
    rw [h] at hl'
    cases hl'
    refine ⟨hx.size_eq, hx.maxPooled_eq, hx.reserved_eq, hx.free_le, hcoh, ?_⟩
    show l.used = x.others - b + x.pool.reserved
    omega
  | @elsewhere root root' h hlimit hlo hhi =>
    refine ⟨hx.size_eq, hx.maxPooled_eq, hx.reserved_eq, hx.free_le, ?_, hused⟩
    refine ⟨hx.coherent.used_le_peak, hx.coherent.peak_le_limit, ?_, ?_⟩
    · rintro r hr
      cases hr
      exact hlo
    · rintro r hr
      cases hr
      exact hhi

theorem Reachable.sound (hx : Reachable size maxPooled x) : Sound size maxPooled x := by
  induction hx with
  | create hl h => exact sound_create hl h
  | step _ h ih => exact h.sound ih

/-- A set that comes back is kept, or its bytes are given back; the pool never holds too little. -/
theorem Sound.exists_giveBack (hx : Sound size maxPooled x) (hout : 0 < x.out) :
    ∃ p l, x.pool.giveBack x.ledger = .ok p l ∧
      (if x.pool.free < x.pool.maxPooled then
        p = { x.pool with free := x.pool.free + 1 } ∧ l = x.ledger
      else
        p = { x.pool with reserved := x.pool.reserved - x.pool.setBytes } ∧
          x.ledger.Frees l x.pool.setBytes) := by
  have hused := hx.used_eq
  have hset := hx.setBytes_le hout
  rw [BufferPool.giveBack_eq]
  split_ifs with hfree hlow
  · exact ⟨_, _, rfl, rfl, rfl⟩
  · omega
  · obtain ⟨l, hl, -, hfrees⟩ := hx.coherent.exists_frees (b := x.pool.setBytes) (by omega)
    rw [hl]
    exact ⟨_, l, rfl, rfl, hfrees⟩

theorem not_affords_iff {l : Ledger} {b : Nat} : ¬ l.Affords b ↔
    l.own.remaining < b ∨ ∃ root ∈ l.pool, root.remaining < b := by
  unfold Ledger.Affords
  rw [not_and_or, Nat.not_le]
  simp only [not_forall, Nat.not_le, exists_prop]

/-- Whatever is taken and returned, and in whatever order: the pool holds 16 bytes per entry of every
set that is free or out, and that much of its ledger; it keeps at most `maxPooled` sets, at least
one. A set can always be returned, and one too many gives back its own bytes. A set is refused
exactly if none is free and the account or its pool has too little left, and nothing is changed
then. Once all sets are back, closing the pool leaves the ledger to the others. -/
theorem Reachable.bytes_accounted (hx : Reachable size maxPooled x) :
    x.pool.reserved = (x.pool.free + x.out) * (16 * size) ∧
    x.ledger.used = x.others + x.pool.reserved ∧
    x.pool.free ≤ max maxPooled 1 ∧
    (0 < x.out → ∃ p l, x.pool.giveBack x.ledger = .ok p l ∧
      if x.pool.free < max maxPooled 1 then
        p.free = x.pool.free + 1 ∧ p.reserved = x.pool.reserved ∧ l = x.ledger
      else
        p.free = x.pool.free ∧ p.reserved + 16 * size = x.pool.reserved ∧
          x.ledger.Frees l (16 * size)) ∧
    ((∃ e l, x.pool.take x.ledger = .error e l) ↔ x.pool.free = 0 ∧
      (x.ledger.own.remaining < 16 * size ∨
        ∃ root ∈ x.ledger.pool, root.remaining < 16 * size)) ∧
    (∀ e l, x.pool.take x.ledger = .error e l → l = x.ledger ∧
      e = .refused (.outOfMemory (x.ledger.shortage (16 * size)))) ∧
    (x.out = 0 → ∃ l, x.ledger.release? x.pool.reserved = some l ∧ l.used = x.others ∧
      x.ledger.Frees l x.pool.reserved) := by
  have hs := hx.sound
  have hused := hs.used_eq
  have hset : x.pool.setBytes = 16 * size := by
    unfold BufferPool.setBytes BufferPool.bytesFor
    rw [hs.size_eq, Nat.mul_comm]
  have hmax : x.pool.maxPooled = max maxPooled 1 := by rw [hs.maxPooled_eq, Nat.max_comm]
  refine ⟨hset ▸ hs.reserved_eq, hused, hmax ▸ hs.free_le, fun hout => ?_, ?_, ?_, fun _ => ?_⟩
  · obtain ⟨p, l, h, hcases⟩ := hs.exists_giveBack hout
    have hle := hs.setBytes_le hout
    refine ⟨p, l, h, ?_⟩
    rw [hset] at hle hcases
    rw [← hmax]
    split_ifs at hcases ⊢
    · obtain ⟨rfl, rfl⟩ := hcases
      exact ⟨rfl, rfl, rfl⟩
    · obtain ⟨rfl, hfrees⟩ := hcases
      exact ⟨rfl, Nat.sub_add_cancel hle, hfrees⟩
  · -- a set is only claimed if none is free
    rw [← hset, ← not_affords_iff]
    constructor
    · rintro ⟨e, l, h⟩
      obtain ⟨hfree, hroom, -, -⟩ := take_error_iff.mp h
      exact ⟨hfree, hroom⟩
    · rintro ⟨hfree, hroom⟩
      exact ⟨_, _, take_error_iff.mpr ⟨hfree, hroom, rfl, rfl⟩⟩
  · intro e l h
    obtain ⟨-, -, he, hl⟩ := take_error_iff.mp h
    rw [hset] at he
    exact ⟨hl, he⟩
  · obtain ⟨l, hl, -, hfrees⟩ := hs.coherent.exists_frees (b := x.pool.reserved) (by omega)
    have hown : l.used + x.pool.reserved = x.ledger.used := hfrees.own
    exact ⟨l, hl, by omega, hfrees⟩

/-- Two sets of 8 entries are out of a pool that keeps one, and 44 bytes of the account are left. -/
def twoOut : Lending :=
  ⟨⟨8, 1, 0, 256⟩, ⟨⟨300, 256, 256⟩, some ⟨1000, 256, 256⟩⟩, 2, 0⟩

/-- One of the two has come back and is kept. -/
def oneOut : Lending :=
  ⟨⟨8, 1, 1, 256⟩, ⟨⟨300, 256, 256⟩, some ⟨1000, 256, 256⟩⟩, 1, 0⟩

theorem reachable_twoOut : Reachable 8 0 twoOut := by
  have hstart : Reachable 8 0
      ⟨⟨8, 1, 1, 128⟩, ⟨⟨300, 128, 128⟩, some ⟨1000, 128, 128⟩⟩, 0, 0⟩ :=
    .create (Ledger.coherent_fresh 300 (some 1000)) rfl
  have hone : Reachable 8 0
      ⟨⟨8, 1, 0, 128⟩, ⟨⟨300, 128, 128⟩, some ⟨1000, 128, 128⟩⟩, 1, 0⟩ :=
    hstart.step (.taken rfl)
  exact hone.step (.taken rfl)

theorem reachable_oneOut : Reachable 8 0 oneOut :=
  reachable_twoOut.step (.returned (x := twoOut) (by decide) rfl)

/-- A third set is refused. Of the two that come back the first is kept, and the second gives back
its bytes. -/
theorem Reachable.bytes_accounted_out :
    (∃ e l, twoOut.pool.take twoOut.ledger = .error e l) ∧
    (∃ p l, twoOut.pool.giveBack twoOut.ledger = .ok p l ∧ p.free = 1 ∧ p.reserved = 256) ∧
    ∃ p l, oneOut.pool.giveBack oneOut.ledger = .ok p l ∧ p.free = 1 ∧ p.reserved + 128 = 256 := by
  obtain ⟨-, -, -, hback, htake, -, -⟩ := Reachable.bytes_accounted reachable_twoOut
  obtain ⟨-, -, -, hover, -, -, -⟩ := Reachable.bytes_accounted reachable_oneOut
  obtain ⟨p, l, hp, hfree, hreserved, -⟩ := hback (by decide)
  obtain ⟨q, m, hq, hfree', hreserved', -⟩ := hover (by decide)
  refine ⟨htake.mpr ⟨rfl, .inl (by decide)⟩, ⟨p, l, hp, hfree, hreserved⟩, q, m, hq, hfree', ?_⟩
  exact hreserved'

end Lending

end Cohort.Memory
