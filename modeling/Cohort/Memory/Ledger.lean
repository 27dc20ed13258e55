import Cohort.Word

/-!
# Ledgers: bytes claimed from an account and from the pool behind it

An account may hold up to `limit` bytes. A ledger is one account together with the pool that it
draws on, if there is one; a claim succeeds only when both have room, and is then charged to both.
A refused claim changes nothing.

· `claim?` and `release?` are the two moves; `release?` refuses bytes that were never claimed.
· `Pool` puts any number of accounts in front of one pool.
-/

namespace Cohort.Memory

/-- Bytes held against a limit, and the most that were ever held. -/
structure Account where
  limit : Nat
  used : Nat
  peak : Nat
  deriving DecidableEq, Repr

namespace Account

/-- An account that holds nothing yet. -/
def empty (limit : Nat) : Account := ⟨limit, 0, 0⟩

def remaining (a : Account) : Nat := a.limit - a.used

def hasRoom (a : Account) (bytes : Nat) : Bool := a.used + bytes ≤ a.limit

/-- Charges `bytes` and moves the high-water mark. -/
def charge (a : Account) (bytes : Nat) : Account :=
  { a with used := a.used + bytes, peak := max a.peak (a.used + bytes) }

def refund (a : Account) (bytes : Nat) : Account :=
  { a with used := a.used - bytes }

end Account

/-- The largest limit an account can have: no limit in practice. -/
def unbounded : Nat := wordBound - 1

/-- A claim that did not fit, with what the asked account itself still had. -/
structure Shortage where
  requested : Nat
  remaining : Nat
  deriving DecidableEq, Repr

/-- An account and the pool behind it. -/
structure Ledger where
  own : Account
  pool : Option Account
  deriving DecidableEq, Repr

namespace Ledger

/-- A ledger that holds nothing, over a fresh pool if `pool` gives its limit. -/
def fresh (limit : Nat) (pool : Option Nat) : Ledger :=
  ⟨.empty limit, pool.map .empty⟩

def used (l : Ledger) : Nat := l.own.used

def hasRoom (l : Ledger) (bytes : Nat) : Bool :=
  l.own.hasRoom bytes && l.pool.all (·.hasRoom bytes)

/-- Charges `bytes` to the account and to its pool. A claim of nothing always succeeds and leaves
the high-water marks alone. -/
def claim? (l : Ledger) (bytes : Nat) : Option Ledger :=
  if bytes = 0 then some l
  else if l.hasRoom bytes then some ⟨l.own.charge bytes, l.pool.map (·.charge bytes)⟩
  else none

/-- Gives `bytes` back, or `none` if fewer are held. -/
def release? (l : Ledger) (bytes : Nat) : Option Ledger :=
  if bytes = 0 then some l
  else if bytes ≤ l.own.used && l.pool.all (bytes ≤ ·.used) then
    some ⟨l.own.refund bytes, l.pool.map (·.refund bytes)⟩
  else none

/-- How a refused claim is reported. -/
def shortage (l : Ledger) (bytes : Nat) : Shortage := ⟨bytes, l.own.remaining⟩

end Ledger

/-- Accounts that draw on one pool, or on none. -/
structure Pool where
  root : Option Account
  accounts : Array Account
  deriving Repr

namespace Pool

/-- One empty account per limit. -/
def fresh (root : Option Nat) (limits : List Nat) : Pool :=
  ⟨root.map .empty, (limits.map Account.empty).toArray⟩

/-- The ledger of account `i`. -/
def ledger? (p : Pool) (i : Nat) : Option Ledger :=
  p.accounts[i]?.map (⟨·, p.root⟩)

/-- Writes the ledger of account `i` back. -/
def update (p : Pool) (i : Nat) (l : Ledger) : Pool :=
  ⟨l.pool, p.accounts.setIfInBounds i l.own⟩

end Pool

/-- Bytes of account `owner` that are given back together. -/
structure Reservation where
  owner : Nat
  amount : Nat
  deriving DecidableEq, Repr

namespace Reservation

/-- Claims `bytes` from account `owner`: the outer `none` is an account that does not exist. -/
def make? (p : Pool) (owner bytes : Nat) : Option (Except Shortage (Pool × Reservation)) :=
  (p.ledger? owner).map fun l =>
    match l.claim? bytes with
    | some l' => .ok (p.update owner l', ⟨owner, bytes⟩)
    | none => .error (l.shortage bytes)

/-- Claims `bytes` more. -/
def grow? (r : Reservation) (p : Pool) (bytes : Nat) :
    Option (Except Shortage (Pool × Reservation)) :=
  (p.ledger? r.owner).map fun l =>
    match l.claim? bytes with
    | some l' => .ok (p.update r.owner l', { r with amount := r.amount + bytes })
    | none => .error (l.shortage bytes)

/-- Gives back all but `amount` bytes; does nothing if `amount` is not smaller than what is held. -/
def shrinkTo? (r : Reservation) (p : Pool) (amount : Nat) : Option (Pool × Reservation) := do
  if amount < r.amount then
    let l ← p.ledger? r.owner
    let l' ← l.release? (r.amount - amount)
    some (p.update r.owner l', { r with amount := amount })
  else some (p, r)

/-- Gives everything back. -/
def drop? (r : Reservation) (p : Pool) : Option Pool := do
  let l ← p.ledger? r.owner
  let l' ← l.release? r.amount
  some (p.update r.owner l')

end Reservation

end Cohort.Memory
