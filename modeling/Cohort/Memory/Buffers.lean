import Cohort.Memory.Charge

/-!
# Buffer pools: sets of scratch buffers kept between calls

A set buffers document ids, values and groups, 16 bytes per entry. The first set is paid for when
the pool is made, others when they are handed out; a set that comes back is kept up to `maxPooled`
of them, at least one, and its bytes are given back otherwise. `reserved` is what the pool holds of
its ledger, for sets that are free and sets that are out.
-/

namespace Cohort.Memory

structure BufferPool where
  size : Nat
  maxPooled : Nat
  free : Nat
  reserved : Nat
  deriving DecidableEq, Repr

namespace BufferPool

/-- Bytes of one set of `size` entries. -/
def bytesFor (size : Nat) : Nat := size * 16

def setBytes (p : BufferPool) : Nat := bytesFor p.size

/-- A pool with one free set. The bytes of a set must be a 64-bit number. -/
def create (size maxPooled : Nat) : Charge BufferPool := do
  if wordBound ≤ bytesFor size then throw .broken
  claim (bytesFor size)
  return ⟨size, max 1 maxPooled, 1, bytesFor size⟩

/-- Hands out a set, a new one if none is free. -/
def take (p : BufferPool) : Charge BufferPool := do
  if 0 < p.free then return { p with free := p.free - 1 }
  claim p.setBytes
  return { p with reserved := p.reserved + p.setBytes }

/-- Takes a set back. -/
def giveBack (p : BufferPool) : Charge BufferPool := do
  if p.free < p.maxPooled then return { p with free := p.free + 1 }
  if p.reserved < p.setBytes then throw .broken
  release p.setBytes
  return { p with reserved := p.reserved - p.setBytes }

end BufferPool

end Cohort.Memory
