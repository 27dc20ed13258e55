import Mathlib.Algebra.Order.BigOperators.Group.List
import Mathlib.Algebra.Order.Group.Nat
import Mathlib.Order.Bounds.Basic
import Cohort.Proofs.Loops
import Cohort.Proofs.Memory.Footing
import Cohort.Proofs.Memory.Nodes

/-!
# Books — accounts of one pool, charged by hand and through reservations

`Books` are a pool in use, `step?` is one move of a caller and `Run` a sequence of moves, none of
which gives back more by hand than was claimed by hand. `Balanced` is what every move keeps: each
account has used what was claimed by hand and what is reserved, and the pool what its accounts have
used. Moves only ever change one account, from one ledger to another (`Ledger.Moved`).
-/

namespace Cohort.Memory

/-! ### Moves -/

/-- A pool in use: the bytes of each account that were claimed by hand and not given back, and the
reservations in the order they were made, none where one was dropped. -/
structure Books where
  pool : Pool
  hand : Nat → Nat
  reservations : List (Option Reservation)

inductive Move where
  | claim (owner bytes : Nat)
  | release (owner bytes : Nat)
  | reserve (owner bytes : Nat)
  | grow (slot bytes : Nat)
  | shrinkTo (slot amount : Nat)
  | drop (slot : Nat)

/-- What a slot reserves of account `i`. -/
def Reservation.share (i : Nat) : Option Reservation → Nat
  | some r => if r.owner = i then r.amount else 0
  | none => 0

/-- Whether `n` bytes of account `i` are left, to the account and in the pool; none always are. -/
def Pool.Affords (p : Pool) (i n : Nat) : Prop :=
  n = 0 ∨ ∃ a, p.accounts[i]? = some a ∧ n ≤ a.remaining ∧ ∀ r ∈ p.root, n ≤ r.remaining

namespace Books

def fresh (root : Option Nat) (limits : List Nat) : Books :=
  ⟨.fresh root limits, fun _ => 0, []⟩

/-- The reservation in a slot, if it is live. -/
def reservation? (b : Books) (slot : Nat) : Option Reservation := (b.reservations[slot]?).join

/-- The bytes of account `i` that live reservations hold. -/
def reserved (b : Books) (i : Nat) : Nat := (b.reservations.map (Reservation.share i)).sum

/-- One move, and whether it was granted; none if it breaks a check. -/
def step? (b : Books) : Move → Option (Bool × Books)
  | .claim i n => do
    match (← b.pool.ledger? i).claim? n with
    | some l =>
      some (true, { b with
        pool := b.pool.update i l
        hand := Function.update b.hand i (b.hand i + n) })
    | none => some (false, b)
  | .release i n => do
    let l ← (← b.pool.ledger? i).release? n
    some (true, { b with
      pool := b.pool.update i l
      hand := Function.update b.hand i (b.hand i - n) })
  | .reserve i n => do
    match ← Reservation.make? b.pool i n with
    | .ok (pool, r) => some (true, { b with pool, reservations := b.reservations ++ [some r] })
    | .error _ => some (false, b)
  | .grow slot n => do
    match ← (← b.reservation? slot).grow? b.pool n with
    | .ok (pool, r) =>
      some (true, { b with pool, reservations := b.reservations.set slot (some r) })
    | .error _ => some (false, b)
  | .shrinkTo slot n => do
    let (pool, r) ← (← b.reservation? slot).shrinkTo? b.pool n
    some (true, { b with pool, reservations := b.reservations.set slot (some r) })
  | .drop slot => do
    let pool ← (← b.reservation? slot).drop? b.pool
    some (true, { b with pool, reservations := b.reservations.set slot none })

end Books

namespace Move

/-- Of accounts that exist and reservations that are live; by hand, only what was claimed by hand
is given back. -/
def Permitted (b : Books) : Move → Prop
  | claim i _ => i < b.pool.accounts.size
  | release i n => i < b.pool.accounts.size ∧ n ≤ b.hand i
  | reserve i _ => i < b.pool.accounts.size
  | grow slot _ => ∃ r, b.reservation? slot = some r
  | shrinkTo slot _ => ∃ r, b.reservation? slot = some r
  | drop slot => ∃ r, b.reservation? slot = some r

/-- The account that a move claims from, and how much; none if it does not claim. -/
def asks? (b : Books) : Move → Option (Nat × Nat)
  | claim i n => some (i, n)
  | reserve i n => some (i, n)
  | grow slot n => (b.reservation? slot).map (·.owner, n)
  | _ => none

end Move

/-- Books after a sequence of moves over an empty pool, and those before each move, latest first. -/
inductive Run (root : Option Nat) (limits : List Nat) : List Books → Books → Prop
  | start : Run root limits [] (.fresh root limits)
  | move {past : List Books} {b b' : Books} {m : Move} {granted : Bool} (h : Run root limits past b)
      (hm : m.Permitted b) (hb : b.step? m = some (granted, b')) : Run root limits (b :: past) b'

/-! ### One ledger -/

namespace Ledger

variable {l l' : Ledger} {n : Nat}

/-- Bytes were claimed or given back: the account and its pool used as much more or less. -/
structure Moved (l l' : Ledger) : Prop where
  limit_eq : l'.own.limit = l.own.limit
  pool_limit_eq : l'.pool.map (·.limit) = l.pool.map (·.limit)
  within : l'.own.Within
  pool_within : ∀ p ∈ l'.pool, p.Within
  used_add : ∀ p ∈ l.pool, ∀ p' ∈ l'.pool, p'.used + l.own.used = p.used + l'.own.used
  peak_eq : l'.own.peak = max l.own.peak l'.own.used

theorem moved_refl (hl : l.Coherent) (hp : ∀ p ∈ l.pool, p.Within) : l.Moved l := by
  refine ⟨rfl, rfl, ⟨hl.used_le_peak, hl.peak_le_limit⟩, hp, fun p h p' h' => ?_, ?_⟩
  · rw [Option.mem_unique h' h]
  · rw [Nat.max_eq_left hl.used_le_peak]

theorem moved_of_claim? (hl : l.Coherent) (hp : ∀ p ∈ l.pool, p.Within)
    (h : l.claim? n = some l') : l.Moved l' := by
  obtain ⟨hl', hused⟩ := hl.claim? h
  unfold claim? at h
  split_ifs at h with h0 hroom
  · cases h
    exact moved_refl hl hp
  · cases h
    have hlimit := hl'.pool_le_limit
    refine ⟨rfl, by cases l.pool <;> rfl, ⟨hl'.used_le_peak, hl'.peak_le_limit⟩, ?_, ?_, rfl⟩
    · intro p' hp'
      have hle := hlimit p' hp'
      obtain ⟨p, hmem, rfl⟩ := Option.map_eq_some_iff.mp hp'
      exact ⟨Nat.le_max_right _ _, Nat.max_le.mpr ⟨(hp p hmem).peak_le_limit, hle⟩⟩
    · intro p hmem p' hp'
      obtain ⟨q, hq, rfl⟩ := Option.map_eq_some_iff.mp hp'
      rw [Option.mem_unique hmem hq]
      simp only [Account.charge]
      omega

theorem moved_of_release? (hl : l.Coherent) (hp : ∀ p ∈ l.pool, p.Within) (hn : n ≤ l.used)
    (h : l.release? n = some l') : l.Moved l' := by
  have hpeak := hl.used_le_peak
  have hlimit := hl.peak_le_limit
  have hpool := hl.used_le_pool
  unfold used at hn
  unfold release? at h
  split_ifs at h with h0 hheld
  · cases h
    exact moved_refl hl hp
  · cases h
    refine ⟨rfl, by cases l.pool <;> rfl, ⟨Nat.le_trans (Nat.sub_le _ _) hpeak, hlimit⟩, ?_, ?_, ?_⟩
    · intro p' hp'
      obtain ⟨p, hmem, rfl⟩ := Option.map_eq_some_iff.mp hp'
      have hw := hp p hmem
      exact ⟨Nat.le_trans (Nat.sub_le _ _) hw.used_le_peak, hw.peak_le_limit⟩
    · intro p hmem p' hp'
      obtain ⟨q, hq, rfl⟩ := Option.map_eq_some_iff.mp hp'
      have hle := hpool q hq
      rw [Option.mem_unique hmem hq]
      simp only [Account.refund]
      omega
    · exact (Nat.max_eq_left (Nat.le_trans (Nat.sub_le _ _) hpeak)).symm

end Ledger

/-! ### All accounts -/

theorem Pool.update_self {p : Pool} {i : Nat} {l : Ledger} (h : p.ledger? i = some l) :
    p.update i l = p := by
  obtain ⟨a, ha, rfl⟩ := Option.map_eq_some_iff.mp h
  obtain ⟨hi, rfl⟩ := Array.getElem?_eq_some_iff.mp ha
  unfold update
  rw [Array.setIfInBounds_def, dif_pos hi, Array.set_getElem_self]

theorem Reservation.share_self (i n : Nat) : share i (some ⟨i, n⟩) = n := if_pos rfl

theorem Reservation.share_of_ne {r : Reservation} {i : Nat} (h : r.owner ≠ i) :
    share i (some r) = 0 := if_neg h

/-- A sum after one entry was replaced. -/
theorem sum_map_set {α : Type} (f : α → Nat) {xs : List α} {i : Nat} {x y : α}
    (h : xs[i]? = some x) : ((xs.set i y).map f).sum + f x = (xs.map f).sum + f y := by
  induction xs generalizing i with
  | nil => cases h
  | cons z xs ih =>
    cases i with
    | zero =>
      obtain rfl : z = x := Option.some_inj.mp h
      simp only [List.set_cons_zero, List.map_cons, List.sum_cons]
      omega
    | succ i =>
      have ih := ih h
      simp only [List.set_cons_succ, List.map_cons, List.sum_cons]
      omega

namespace Books

variable {root : Option Nat} {limits : List Nat} {b b' : Books} {i n slot : Nat}

/-- What account `i` should have used. -/
def claimed (b : Books) (i : Nat) : Nat := b.hand i + b.reserved i

/-- The invariant of all moves. -/
structure Balanced (root : Option Nat) (limits : List Nat) (b : Books) : Prop where
  root_limit : b.pool.root.map (·.limit) = root
  root_used : ∀ r ∈ b.pool.root, r.used = (b.pool.accounts.toList.map (·.used)).sum
  root_within : ∀ r ∈ b.pool.root, r.Within
  size_eq : b.pool.accounts.size = limits.length
  limit_eq : ∀ (i : Nat) (a : Account), b.pool.accounts[i]? = some a → limits[i]? = some a.limit
  used_eq : ∀ (i : Nat) (a : Account), b.pool.accounts[i]? = some a → a.used = b.claimed i
  within : ∀ (i : Nat) (a : Account), b.pool.accounts[i]? = some a → a.Within
  owner_lt : ∀ r, some r ∈ b.reservations → r.owner < b.pool.accounts.size

theorem balanced_fresh (root : Option Nat) (limits : List Nat) :
    (fresh root limits).Balanced root limits := by
  have hempty : ∀ (i : Nat) (a : Account), (fresh root limits).pool.accounts[i]? = some a →
      limits[i]? = some a.limit ∧ a.used = 0 ∧ a.Within := by
    intro i a ha
    simp only [fresh, Pool.fresh, List.getElem?_toArray, List.getElem?_map,
      Option.map_eq_some_iff] at ha
    obtain ⟨limit, hlimit, rfl⟩ := ha
    exact ⟨hlimit, rfl, ⟨le_rfl, Nat.zero_le _⟩⟩
  have hroot : ∀ r ∈ (fresh root limits).pool.root, r.used = 0 ∧ r.Within := by
    intro r hr
    obtain ⟨limit, -, rfl⟩ := Option.map_eq_some_iff.mp hr
    exact ⟨rfl, ⟨le_rfl, Nat.zero_le _⟩⟩
  refine ⟨?_, fun r hr => ?_, fun r hr => (hroot r hr).2, ?_, fun i a ha => (hempty i a ha).1,
    fun i a ha => (hempty i a ha).2.1, fun i a ha => (hempty i a ha).2.2, nofun⟩
  · cases root <;> rfl
  · rw [(hroot r hr).1]
    refine (List.sum_eq_zero fun x hx => ?_).symm
    simp only [fresh, Pool.fresh, List.map_map] at hx
    obtain ⟨limit, -, rfl⟩ := List.mem_map.mp hx
    rfl
  · simp only [fresh, Pool.fresh, List.size_toArray, List.length_map]

/-- Every account has a coherent ledger. -/
theorem Balanced.exists_ledger (h : b.Balanced root limits) (hi : i < b.pool.accounts.size) :
    ∃ l, b.pool.ledger? i = some l ∧ b.pool.accounts[i]? = some l.own ∧ l.pool = b.pool.root ∧
      l.Coherent ∧ ∀ p ∈ l.pool, p.Within := by
  have ha : b.pool.accounts[i]? = some b.pool.accounts[i] := Array.getElem?_eq_getElem hi
  have hown := h.within i _ ha
  refine ⟨⟨b.pool.accounts[i], b.pool.root⟩, ?_, ha, rfl, ?_, h.root_within⟩
  · rw [Pool.ledger?, ha, Option.map_some]
  · refine ⟨hown.used_le_peak, hown.peak_le_limit, fun p hp => ?_, fun p hp => ?_⟩
    · rw [h.root_used p hp]
      exact List.single_le_sum (fun _ _ => Nat.zero_le _) _
        (List.mem_map_of_mem (Array.getElem_mem_toList hi))
    · exact Nat.le_trans (h.root_within p hp).used_le_peak (h.root_within p hp).peak_le_limit

/-- Limits that are words stay words. -/
theorem Balanced.fits {l : Ledger} (h : b.Balanced root limits)
    (hroot : ∀ limit ∈ root, limit < wordBound) (hlimits : ∀ limit ∈ limits, limit < wordBound)
    (hl : b.pool.ledger? i = some l) : ∀ a ∈ l.own :: l.pool.toList, a.Fits := by
  obtain ⟨own, hown, rfl⟩ := Option.map_eq_some_iff.mp hl
  intro a ha
  rcases List.mem_cons.mp ha with rfl | hpool
  · exact ⟨h.within i a hown, hlimits _ (List.mem_of_getElem? (h.limit_eq i a hown))⟩
  · have hmem : b.pool.root = some a := Option.mem_toList.mp hpool
    refine ⟨h.root_within a hmem, hroot _ ?_⟩
    rw [← h.root_limit, hmem]
    rfl

/-- `b'` came of `b` by moving the ledger of one account from `l` to `l'`, and no account's use
without its claims. -/
structure Transfer (b b' : Books) (i : Nat) (l l' : Ledger) : Prop where
  ledger : b.pool.ledger? i = some l
  moved : l.Moved l'
  pool_eq : b'.pool = b.pool.update i l'
  self : b'.claimed i + l.own.used = b.claimed i + l'.own.used
  others : ∀ j ≠ i, b'.claimed j = b.claimed j
  owners : ∀ r, some r ∈ b'.reservations → r.owner < b.pool.accounts.size

/-- An account after a transfer is the one that moved or was there before. -/
theorem Transfer.account_cases {l l' : Ledger} (ht : Transfer b b' i l l') {j : Nat} {a : Account}
    (ha : b'.pool.accounts[j]? = some a) :
    j = i ∧ a = l'.own ∨ j ≠ i ∧ b.pool.accounts[j]? = some a := by
  rw [ht.pool_eq, Pool.update, Array.getElem?_setIfInBounds] at ha
  split_ifs at ha with hij hi
  · exact .inl ⟨hij.symm, (Option.some_inj.mp ha).symm⟩
  · exact .inr ⟨Ne.symm hij, ha⟩

/-- The root used as much more or less as the account that moved. -/
theorem Transfer.root_used {l l' : Ledger} (h : b.Balanced root limits)
    (ht : Transfer b b' i l l') :
    ∀ r ∈ b'.pool.root, r.used = (b'.pool.accounts.toList.map (·.used)).sum := by
  obtain ⟨a, ha, rfl⟩ := Option.map_eq_some_iff.mp ht.ledger
  intro r' hr'
  rw [ht.pool_eq, Pool.update] at hr' ⊢
  have hr' : l'.pool = some r' := hr'
  obtain ⟨r, hr⟩ : ∃ r, b.pool.root = some r := by
    have hsome := congrArg Option.isSome ht.moved.pool_limit_eq
    simp only [Option.isSome_map, hr', Option.isSome_some] at hsome
    exact Option.isSome_iff_exists.mp hsome.symm
  have hlist : b.pool.accounts.toList[i]? = some a := by rw [Array.getElem?_toList, ha]
  have hsum := sum_map_set (·.used) (y := l'.own) hlist
  have hold := h.root_used r hr
  have hadd := ht.moved.used_add r hr r' hr'
  rw [Array.toList_setIfInBounds]
  simp only at hadd hsum
  omega

/-- Sums over the accounts change as the account that moved. -/
theorem Transfer.balanced {l l' : Ledger} (h : b.Balanced root limits) (ht : Transfer b b' i l l') :
    b'.Balanced root limits := by
  have hroot_used := ht.root_used h
  obtain ⟨a, ha, rfl⟩ := Option.map_eq_some_iff.mp ht.ledger
  have hm := ht.moved
  have hset : b'.pool.accounts = b.pool.accounts.setIfInBounds i l'.own := by
    rw [ht.pool_eq, Pool.update]
  have hroot : b'.pool.root = l'.pool := by rw [ht.pool_eq, Pool.update]
  refine ⟨?_, hroot_used, ?_, ?_, ?_, ?_, ?_, ?_⟩
  · rw [hroot, hm.pool_limit_eq, h.root_limit]
  · rw [hroot]
    exact hm.pool_within
  · rw [hset, Array.size_setIfInBounds, h.size_eq]
  · intro j a' ha'
    rcases ht.account_cases ha' with ⟨rfl, rfl⟩ | ⟨-, hold⟩
    · rw [hm.limit_eq]
      exact h.limit_eq j a ha
    · exact h.limit_eq j a' hold
  · intro j a' ha'
    rcases ht.account_cases ha' with ⟨rfl, rfl⟩ | ⟨hne, hold⟩
    · have hself := ht.self
      have hused := h.used_eq j a ha
      simp only at hself
      omega
    · rw [ht.others j hne]
      exact h.used_eq j a' hold
  · intro j a' ha'
    rcases ht.account_cases ha' with ⟨-, rfl⟩ | ⟨-, hold⟩
    · exact hm.within
    · exact h.within j a' hold
  · intro r hr
    rw [hset, Array.size_setIfInBounds]
    exact ht.owners r hr

/-! ### One move -/

/-- How much room there is decides about a claim. -/
theorem Balanced.exists_claim (h : b.Balanced root limits) (hi : i < b.pool.accounts.size)
    (n : Nat) :
    ∃ l, b.pool.ledger? i = some l ∧
      ((∃ l', l.claim? n = some l' ∧ l.Moved l' ∧ l'.own.used = l.own.used + n ∧
          b.pool.Affords i n) ∨
        (l.claim? n = none ∧ ¬ b.pool.Affords i n)) := by
  obtain ⟨l, hl, ha, hroot, hcoh, hwithin⟩ := h.exists_ledger hi
  have hroom : b.pool.Affords i n ↔ (l.claim? n).isSome := by
    unfold Pool.Affords
    rw [Ledger.claim?_isSome, hroot, ha]
    simp only [Option.some.injEq, exists_eq_left']
  refine ⟨l, hl, ?_⟩
  rw [hroom]
  cases hclaim : l.claim? n with
  | none => exact .inr ⟨rfl, nofun⟩
  | some l' =>
    have hused := (hcoh.claim? hclaim).2
    exact .inl ⟨l', rfl, Ledger.moved_of_claim? hcoh hwithin hclaim, hused, rfl⟩

/-- What was claimed can be given back. -/
theorem Balanced.exists_release (h : b.Balanced root limits) (hi : i < b.pool.accounts.size)
    (hn : n ≤ b.claimed i) : ∃ l l', b.pool.ledger? i = some l ∧ l.release? n = some l' ∧
      l.Moved l' ∧ l'.own.used + n = l.own.used := by
  obtain ⟨l, hl, ha, -, hcoh, hwithin⟩ := h.exists_ledger hi
  have hle : n ≤ l.used := Nat.le_trans hn (Nat.le_of_eq (h.used_eq i l.own ha).symm)
  obtain ⟨l', hl', -, hused⟩ := hcoh.release? hle
  exact ⟨l, l', hl, hl', Ledger.moved_of_release? hcoh hwithin hle hl', hused⟩

/-- Bytes moved by hand. -/
theorem transfer_hand {l l' : Ledger} {k : Nat} (h : b.Balanced root limits)
    (hl : b.pool.ledger? i = some l) (hm : l.Moved l')
    (hk : k + l.own.used = b.hand i + l'.own.used) :
    Transfer b { b with pool := b.pool.update i l', hand := Function.update b.hand i k } i l
      l' := by
  refine ⟨hl, hm, rfl, ?_, fun j hj => ?_, h.owner_lt⟩
  · simp only [claimed, reserved, Function.update_self]
    omega
  · simp only [claimed, reserved, Function.update_of_ne hj]

/-- The contents of a slot replaced, by none or by a reservation of the same account. -/
theorem transfer_slot {l l' : Ledger} {r : Reservation} {x : Option Reservation}
    (h : b.Balanced root limits) (hr : b.reservation? slot = some r)
    (hl : b.pool.ledger? r.owner = some l) (hm : l.Moved l') (hx : ∀ r' ∈ x, r'.owner = r.owner)
    (hk : Reservation.share r.owner x + l.own.used = r.amount + l'.own.used) :
    Transfer b
      { b with pool := b.pool.update r.owner l', reservations := b.reservations.set slot x }
      r.owner l l' := by
  have hslot : b.reservations[slot]? = some (some r) := Option.join_eq_some_iff.mp hr
  refine ⟨hl, hm, rfl, ?_, fun j hj => ?_, fun r' hr' => ?_⟩
  · have hsum := sum_map_set (Reservation.share r.owner) (y := x) hslot
    have hshare : Reservation.share r.owner (some r) = r.amount := Reservation.share_self _ _
    simp only [claimed, reserved]
    omega
  · have hsum := sum_map_set (Reservation.share j) (y := x) hslot
    have hold := Reservation.share_of_ne (Ne.symm hj)
    have hnew : Reservation.share j x = 0 := by
      cases x with
      | none => rfl
      | some r' => exact Reservation.share_of_ne (hx r' rfl ▸ Ne.symm hj)
    simp only [claimed, reserved]
    omega
  · rcases List.mem_or_eq_of_mem_set hr' with hmem | rfl
    · exact h.owner_lt r' hmem
    · rw [hx r' rfl]
      exact h.owner_lt r (List.mem_of_getElem? hslot)

/-- A reservation added. -/
theorem transfer_reserve {l l' : Ledger} (h : b.Balanced root limits)
    (hl : b.pool.ledger? i = some l) (hm : l.Moved l') (hk : l'.own.used = l.own.used + n) :
    Transfer b
      { b with pool := b.pool.update i l', reservations := b.reservations ++ [some ⟨i, n⟩] }
      i l l' := by
  have hi : i < b.pool.accounts.size := by
    obtain ⟨a, ha, -⟩ := Option.map_eq_some_iff.mp hl
    exact (Array.getElem?_eq_some_iff.mp ha).1
  refine ⟨hl, hm, rfl, ?_, fun j hj => ?_, fun r hr => ?_⟩
  · simp only [claimed, reserved, List.map_append, List.map_cons, List.map_nil, List.sum_append,
      List.sum_singleton, Reservation.share_self]
    omega
  · have hshare : Reservation.share j (some ⟨i, n⟩) = 0 := Reservation.share_of_ne (Ne.symm hj)
    simp only [claimed, reserved, List.map_append, List.map_cons, List.map_nil, List.sum_append,
      List.sum_singleton, hshare, Nat.add_zero]
  · rcases List.mem_append.mp hr with hmem | hnew
    · exact h.owner_lt r hmem
    · obtain rfl := Option.some_inj.mp (List.mem_singleton.mp hnew)
      exact hi

/-- How a permitted move ends: granted, or refused with nothing changed. It claims if there is
room, and what does not claim is granted. -/
def Settles (b : Books) (m : Move) : Prop :=
  ∃ granted b', b.step? m = some (granted, b') ∧ (granted = false → b' = b) ∧
    (granted = true → ∃ i l l', Transfer b b' i l l') ∧
    (m.asks? b = none → granted = true) ∧
    ∀ i n, m.asks? b = some (i, n) → (granted = true ↔ b.pool.Affords i n)

variable {m : Move}

theorem settles_granted {l l' : Ledger} (hstep : b.step? m = some (true, b'))
    (ht : Transfer b b' i l l') (hm : ∀ i n, m.asks? b = some (i, n) → b.pool.Affords i n) :
    b.Settles m :=
  ⟨true, b', hstep, nofun, fun _ => ⟨i, l, l', ht⟩, fun _ => rfl,
    fun i n hask => iff_of_true rfl (hm i n hask)⟩

theorem settles_refused (hstep : b.step? m = some (false, b)) (hask : m.asks? b = some (i, n))
    (hroom : ¬ b.pool.Affords i n) : b.Settles m := by
  refine ⟨false, b, hstep, fun _ => rfl, nofun, fun h => ?_, fun j k h => ?_⟩
  · rw [hask] at h
    cases h
  · rw [hask] at h
    cases h
    exact iff_of_false nofun hroom

theorem Balanced.settles_claim (h : b.Balanced root limits) (hi : i < b.pool.accounts.size) :
    b.Settles (.claim i n) := by
  obtain ⟨l, hl, ⟨l', hclaim, hmoved, hused, hroom⟩ | ⟨hclaim, hroom⟩⟩ := h.exists_claim hi n
  · refine settles_granted ?_ (transfer_hand h hl hmoved (k := b.hand i + n) (by omega)) ?_
    · simp only [step?, hl, hclaim, Option.bind_eq_bind, Option.bind_some]
    · intro j k hask
      cases hask
      exact hroom
  · refine settles_refused ?_ rfl hroom
    simp only [step?, hl, hclaim, Option.bind_eq_bind, Option.bind_some]

theorem Balanced.settles_release (h : b.Balanced root limits) (hi : i < b.pool.accounts.size)
    (hn : n ≤ b.hand i) : b.Settles (.release i n) := by
  obtain ⟨l, l', hl, hrelease, hmoved, hused⟩ :=
    h.exists_release hi (Nat.le_trans hn (Nat.le_add_right _ _))
  refine settles_granted ?_ (transfer_hand h hl hmoved (k := b.hand i - n) (by omega)) nofun
  simp only [step?, hl, hrelease, Option.bind_eq_bind, Option.bind_some]

theorem Balanced.settles_reserve (h : b.Balanced root limits) (hi : i < b.pool.accounts.size) :
    b.Settles (.reserve i n) := by
  obtain ⟨l, hl, ⟨l', hclaim, hmoved, hused, hroom⟩ | ⟨hclaim, hroom⟩⟩ := h.exists_claim hi n
  · refine settles_granted ?_ (transfer_reserve h hl hmoved hused) ?_
    · simp only [step?, Reservation.make?, hl, hclaim, Option.map_some, Option.bind_eq_bind,
        Option.bind_some]
    · intro j k hask
      cases hask
      exact hroom
  · refine settles_refused ?_ rfl hroom
    simp only [step?, Reservation.make?, hl, hclaim, Option.map_some, Option.bind_eq_bind,
      Option.bind_some]

/-- A live reservation is among what its account has claimed. -/
theorem amount_le_claimed {r : Reservation} (hr : b.reservation? slot = some r) :
    r.amount ≤ b.claimed r.owner := by
  have hslot : b.reservations[slot]? = some (some r) := Option.join_eq_some_iff.mp hr
  have hsum := sum_map_set (Reservation.share r.owner) (y := none) hslot
  have hshare : Reservation.share r.owner (some r) = r.amount := Reservation.share_self _ _
  have hnone : Reservation.share r.owner none = 0 := rfl
  unfold claimed reserved
  omega

section Slots

variable {r : Reservation} (h : b.Balanced root limits) (hr : b.reservation? slot = some r)
include h hr

theorem Balanced.slot_owner_lt : r.owner < b.pool.accounts.size :=
  h.owner_lt r (List.mem_of_getElem? (Option.join_eq_some_iff.mp hr))

theorem Balanced.settles_grow : b.Settles (.grow slot n) := by
  have hask : (Move.grow slot n).asks? b = some (r.owner, n) := by
    simp only [Move.asks?, hr, Option.map_some]
  obtain ⟨l, hl, ⟨l', hclaim, hmoved, hused, hroom⟩ | ⟨hclaim, hroom⟩⟩ :=
    h.exists_claim (h.slot_owner_lt hr) n
  · refine settles_granted ?_ (transfer_slot (x := some { r with amount := r.amount + n }) h hr hl
      hmoved ?_ ?_) ?_
    · simp only [step?, hr, Reservation.grow?, hl, hclaim, Option.map_some, Option.bind_eq_bind,
        Option.bind_some]
    · rintro _ ⟨⟩
      rfl
    · rw [Reservation.share_self]
      omega
    · intro j k hjk
      rw [hask] at hjk
      cases hjk
      exact hroom
  · refine settles_refused ?_ hask hroom
    simp only [step?, hr, Reservation.grow?, hl, hclaim, Option.map_some, Option.bind_eq_bind,
      Option.bind_some]

theorem Balanced.settles_shrinkTo : b.Settles (.shrinkTo slot n) := by
  have hle := amount_le_claimed hr
  by_cases hn : n < r.amount
  · obtain ⟨l, l', hl, hrelease, hmoved, hused⟩ :=
      h.exists_release (n := r.amount - n) (h.slot_owner_lt hr) (by omega)
    refine settles_granted ?_ (transfer_slot (x := some { r with amount := n }) h hr hl hmoved ?_
      ?_) nofun
    · simp only [step?, hr, Reservation.shrinkTo?, if_pos hn, hl, hrelease, Option.bind_eq_bind,
        Option.bind_some]
    · rintro _ ⟨⟩
      rfl
    · rw [Reservation.share_self]
      omega
  · obtain ⟨l, hl, ha, hroot, hcoh, hwithin⟩ := h.exists_ledger (h.slot_owner_lt hr)
    -- nothing moves: the ledger is written back as it was
    have ht := transfer_slot (x := some r) h hr hl (Ledger.moved_refl hcoh hwithin) (by
      rintro _ ⟨⟩
      rfl) (by rw [Reservation.share_self])
    rw [Pool.update_self hl] at ht
    refine settles_granted ?_ ht nofun
    simp only [step?, hr, Reservation.shrinkTo?, if_neg hn, Option.bind_eq_bind, Option.bind_some]

theorem Balanced.settles_drop : b.Settles (.drop slot) := by
  obtain ⟨l, l', hl, hrelease, hmoved, hused⟩ :=
    h.exists_release (h.slot_owner_lt hr) (amount_le_claimed hr)
  refine settles_granted ?_ (transfer_slot (x := none) h hr hl hmoved nofun ?_) nofun
  · simp only [step?, hr, Reservation.drop?, hl, hrelease, Option.bind_eq_bind, Option.bind_some]
  · rw [Reservation.share]
    omega

end Slots

/-- Every permitted move of balanced books settles. -/
theorem Balanced.settles (h : b.Balanced root limits) (hm : m.Permitted b) : b.Settles m := by
  cases m with
  | claim i n => exact h.settles_claim hm
  | release i n => exact h.settles_release hm.1 hm.2
  | reserve i n => exact h.settles_reserve hm
  | grow slot n => exact h.settles_grow hm.choose_spec
  | shrinkTo slot n => exact h.settles_shrinkTo hm.choose_spec
  | drop slot => exact h.settles_drop hm.choose_spec

/-- A move changes nothing, or one account and its pool. -/
theorem Balanced.step_cases (h : b.Balanced root limits) (hm : m.Permitted b) {granted : Bool}
    (hb : b.step? m = some (granted, b')) : b' = b ∨ ∃ i l l', Transfer b b' i l l' := by
  obtain ⟨granted', b'', hstep, hrefused, hgranted, -⟩ := h.settles hm
  obtain ⟨rfl, rfl⟩ : granted' = granted ∧ b'' = b' := by
    rw [hstep, Option.some_inj, Prod.mk.injEq] at hb
    exact hb
  cases granted' with
  | true => exact .inr (hgranted rfl)
  | false => exact .inl (hrefused rfl)

/-- The use of account `i`. -/
def used? (b : Books) (i : Nat) : Option Nat := b.pool.accounts[i]?.map (·.used)

/-- A move raises the high-water marks to what is used after it. -/
theorem Balanced.peak_step (h : b.Balanced root limits)
    (hb : b' = b ∨ ∃ i l l', Transfer b b' i l l') {j : Nat} {a' : Account}
    (ha' : b'.pool.accounts[j]? = some a') :
    ∃ a, b.pool.accounts[j]? = some a ∧ a'.peak = max a'.used a.peak := by
  have hsame : b.pool.accounts[j]? = some a' →
      ∃ a, b.pool.accounts[j]? = some a ∧ a'.peak = max a'.used a.peak := fun ha =>
    ⟨a', ha, (Nat.max_eq_right (h.within j a' ha).used_le_peak).symm⟩
  obtain rfl | ⟨i, l, l', ht⟩ := hb
  · exact hsame ha'
  · rcases ht.account_cases ha' with ⟨rfl, rfl⟩ | ⟨-, hold⟩
    · obtain ⟨a, ha, rfl⟩ := Option.map_eq_some_iff.mp ht.ledger
      exact ⟨a, ha, ht.moved.peak_eq.trans (Nat.max_comm _ _)⟩
    · exact hsame hold

end Books

/-! ### Runs -/

namespace Run

open Books

variable {root : Option Nat} {limits : List Nat} {past : List Books} {b : Books}

theorem balanced (h : Run root limits past b) : b.Balanced root limits := by
  induction h with
  | start => exact balanced_fresh root limits
  | move _ hm hb ih =>
    obtain rfl | ⟨i, l, l', ht⟩ := ih.step_cases hm hb
    · exact ih
    · exact ht.balanced ih

/-- The high-water mark of an account is the largest use so far. -/
theorem isGreatest_peak (h : Run root limits past b) {i : Nat} {a : Account}
    (ha : b.pool.accounts[i]? = some a) :
    IsGreatest {u | ∃ c ∈ b :: past, c.used? i = some u} a.peak := by
  induction h generalizing a with
  | start =>
    have hempty : a.used = 0 ∧ a.peak = 0 := by
      simp only [fresh, Pool.fresh, List.getElem?_toArray, List.getElem?_map,
        Option.map_eq_some_iff] at ha
      obtain ⟨limit, -, rfl⟩ := ha
      exact ⟨rfl, rfl⟩
    have hused : (fresh root limits).used? i = some 0 := by
      rw [used?, ha, Option.map_some, hempty.1]
    rw [hempty.2]
    refine ⟨⟨_, List.mem_singleton_self _, hused⟩, ?_⟩
    rintro u ⟨c, hc, hu⟩
    rw [List.mem_singleton.mp hc, hused] at hu
    exact Nat.le_of_eq (Option.some_inj.mp hu).symm
  | @move past b b' m granted hrun hm hb ih =>
    obtain ⟨a₀, ha₀, hpeak⟩ := hrun.balanced.peak_step (hrun.balanced.step_cases hm hb) ha
    have hused : b'.used? i = some a.used := by rw [used?, ha, Option.map_some]
    -- a move adds the use it leads to
    have hset : {u | ∃ c ∈ b' :: b :: past, c.used? i = some u} =
        insert a.used {u | ∃ c ∈ b :: past, c.used? i = some u} := by
      ext u
      constructor
      · rintro ⟨c, hc, hu⟩
        rcases List.mem_cons.mp hc with rfl | hold
        · exact .inl (Option.some_inj.mp (hu.symm.trans hused))
        · exact .inr ⟨c, hold, hu⟩
      · rintro (rfl | ⟨c, hold, hu⟩)
        · exact ⟨b', List.mem_cons_self, hused⟩
        · exact ⟨c, List.mem_cons_of_mem _ hold, hu⟩
    rw [hset, hpeak]
    exact (ih ha₀).insert a.used

/-- The books of any run are in order. Each account has used what was claimed by hand and what is
reserved, within its limit, and its high-water mark is the largest use so far; the pool has used
what its accounts have, within its own limit. Any move that is permitted next breaks no check,
changes nothing if it is refused, and is refused only if it claims more than there is. If the limits
are words, the counters of every account and of the pool do the same. -/
theorem books_balance (h : Run root limits past b) :
    (b.pool.accounts.size = limits.length ∧
      ∀ (i : Nat) (a : Account), b.pool.accounts[i]? = some a →
        limits[i]? = some a.limit ∧ a.used = b.hand i + b.reserved i ∧ a.used ≤ a.limit ∧
        IsGreatest {u | ∃ c ∈ b :: past, c.used? i = some u} a.peak) ∧
    (b.pool.root.map (·.limit) = root ∧
      ∀ r ∈ b.pool.root, r.used = (b.pool.accounts.toList.map (·.used)).sum ∧ r.used ≤ r.limit) ∧
    (∀ m : Move, m.Permitted b → ∃ granted b', b.step? m = some (granted, b') ∧
      (granted = false → b' = b) ∧ (m.asks? b = none → granted = true) ∧
      ∀ i n, m.asks? b = some (i, n) → (granted = true ↔ b.pool.Affords i n)) ∧
    ((∀ limit ∈ root, limit < wordBound) → (∀ limit ∈ limits, limit < wordBound) →
      ∀ (i : Nat) (l : Ledger), b.pool.ledger? i = some l →
        (∀ a ∈ l.own :: l.pool.toList, a.node.used.toNat = a.used ∧
          a.node.remaining.value.toNat = a.remaining ∧ a.node.peak.value.toNat = a.peak) ∧
        ∀ n : UInt64, Node.allocate n l.nodes =
            ((l.claim? n.toNat).isSome, ((l.claim? n.toNat).getD l).nodes) ∧
          Node.release? n l.nodes = (l.release? n.toNat).map Ledger.nodes) := by
  have hb := h.balanced
  refine ⟨⟨hb.size_eq, fun i a ha => ?_⟩, ⟨hb.root_limit, fun r hr => ?_⟩, fun m hm => ?_,
    fun hroot hlimits i l hl => ?_⟩
  · have hw := hb.within i a ha
    exact ⟨hb.limit_eq i a ha, hb.used_eq i a ha, Nat.le_trans hw.used_le_peak hw.peak_le_limit,
      h.isGreatest_peak ha⟩
  · have hw := hb.root_within r hr
    exact ⟨hb.root_used r hr, Nat.le_trans hw.used_le_peak hw.peak_le_limit⟩
  · obtain ⟨granted, b', hstep, hrefused, -, hnone, hask⟩ := hb.settles hm
    exact ⟨granted, b', hstep, hrefused, hnone, hask⟩
  · have hfits : ∀ a ∈ l.own :: l.pool.toList, a.Fits := hb.fits hroot hlimits hl
    exact ⟨fun a ha => (hfits a ha).readings, fun n =>
      ⟨Ledger.allocate_nodes hfits n, Ledger.release?_nodes hfits n⟩⟩

/-- Two accounts of one pool: bytes that the second may claim by its own limit are not in the pool
any more. -/
def shared : Books where
  pool := ⟨some ⟨100, 90, 100⟩, #[⟨80, 70, 70⟩, ⟨80, 20, 30⟩]⟩
  hand := Function.update (fun _ => 0) 0 70
  reservations := [some ⟨1, 20⟩]

theorem books_balance_shared : ∃ past, Run (some 100) [80, 80] past shared ∧
    20 = shared.hand 1 + shared.reserved 1 ∧
    IsGreatest {u | ∃ c ∈ shared :: past, c.used? 1 = some u} 30 := by
  have htwo : 0 < 2 := by decide
  have hclaim : Run (some 100) [80, 80] _ _ := .move (m := .claim 0 70) .start htwo rfl
  have hrefused : Run (some 100) [80, 80] _ _ :=
    .move (m := .claim 1 40) hclaim (Nat.lt_succ_self 1) rfl
  have hreserve : Run (some 100) [80, 80] _ _ :=
    .move (m := .reserve 1 30) hrefused (Nat.lt_succ_self 1) rfl
  have hshrink : Run (some 100) [80, 80] _ shared :=
    .move (m := .shrinkTo 0 20) hreserve ⟨_, rfl⟩ rfl
  obtain ⟨-, hused, -, hpeak⟩ := (books_balance hshrink).1.2 1 ⟨80, 20, 30⟩ rfl
  exact ⟨_, hshrink, hused, hpeak⟩

end Run

end Cohort.Memory
