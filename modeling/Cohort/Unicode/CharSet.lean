/-!
# Character sets

A set of characters is a list of ranges of code points, ascending and with room in between. The
operations work on the ranges. Surrogates are no characters: a step up from U+D7FF leads to U+E000,
and a range that reaches across them holds what lies on both sides.
-/

namespace Cohort.Unicode

structure CharSet where
  ranges : List (Nat × Nat)
  deriving DecidableEq, Repr

namespace CharSet

/-- The code point of the character after `x`. -/
def next (x : Nat) : Nat := if x = 0xd7ff then 0xe000 else x + 1

/-- The code point of the character before `x`. -/
def previous (x : Nat) : Nat := if x = 0xe000 then 0xd7ff else x - 1

def last : Nat := 0x10ffff

def empty : CharSet := ⟨[]⟩

/-- Every character. -/
def any : CharSet := ⟨[(0, last)]⟩

def range (first last : Nat) : CharSet := ⟨[(first, last)]⟩

def single (c : Char) : CharSet := range c.toNat c.toNat

def isEmpty (s : CharSet) : Bool := s.ranges.isEmpty

def memCode (s : CharSet) (x : Nat) : Bool := s.ranges.any fun r => r.1 ≤ x && x ≤ r.2

def mem (s : CharSet) (c : Char) : Bool := s.memCode c.toNat

/-- The only member of a set of one. -/
def only? (s : CharSet) : Option Char :=
  match s.ranges with
  | [(first, last)] => if first = last then some (Char.ofNat first) else none
  | _ => none

/-- Whether all members are ASCII. -/
def isAscii (s : CharSet) : Bool := s.ranges.all (·.2 < 0x80)

/-- Joins the first range, given by its ends, with those after it that it touches. -/
def coalesceFrom (first last : Nat) : List (Nat × Nat) → List (Nat × Nat)
  | [] => [(first, last)]
  | r :: rest =>
    if r.1 ≤ last + 1 then coalesceFrom first (max last r.2) rest
    else (first, last) :: coalesceFrom r.1 r.2 rest

/-- Joins ranges that overlap or touch, given in the order of their first code points. -/
def coalesce : List (Nat × Nat) → CharSet
  | [] => empty
  | r :: rest => ⟨coalesceFrom r.1 r.2 rest⟩

/-- The set of all members of the ranges, which may overlap and be in any order. -/
def ofRanges (ranges : List (Nat × Nat)) : CharSet :=
  coalesce (ranges.mergeSort fun a b => a.1 ≤ b.1)

def ofChars (cs : List Char) : CharSet := ofRanges (cs.map fun c => (c.toNat, c.toNat))

def union (s t : CharSet) : CharSet :=
  coalesce (s.ranges.merge t.ranges fun a b => a.1 ≤ b.1)

def unions (sets : List CharSet) : CharSet := ofRanges (sets.flatMap (·.ranges))

/-- What two lists of ranges share. -/
def interRanges : List (Nat × Nat) → List (Nat × Nat) → List (Nat × Nat)
  | [], _ => []
  | _, [] => []
  | a :: as, b :: bs =>
    let rest := if a.2 < b.2 then interRanges as (b :: bs) else interRanges (a :: as) bs
    if max a.1 b.1 ≤ min a.2 b.2 then (max a.1 b.1, min a.2 b.2) :: rest else rest
termination_by as bs => as.length + bs.length

def inter (s t : CharSet) : CharSet := ⟨interRanges s.ranges t.ranges⟩

/-- What the first list of ranges has and the second has not. -/
def diffRanges : List (Nat × Nat) → List (Nat × Nat) → List (Nat × Nat)
  | [], _ => []
  | as, [] => as
  | a :: as, b :: bs =>
    if a.2 < b.1 then a :: diffRanges as (b :: bs)
    else if b.2 < a.1 then diffRanges (a :: as) bs
    else
      let before := if a.1 < b.1 then [(a.1, previous b.1)] else []
      if b.2 < a.2 then before ++ diffRanges ((next b.2, a.2) :: as) bs
      else before ++ diffRanges as (b :: bs)
termination_by as bs => as.length + bs.length

def diff (s t : CharSet) : CharSet := ⟨diffRanges s.ranges t.ranges⟩

/-- What exactly one of two sets has. -/
def symmDiff (s t : CharSet) : CharSet := (s.union t).diff (s.inter t)

/-- The gaps after a range that ends at `last`. Two ranges that only the surrogates keep apart leave
no character between them; their gap is taken to be the two characters at its borders. -/
def gapsAfter (last : Nat) : List (Nat × Nat) → List (Nat × Nat)
  | [] => if last < CharSet.last then [(next last, CharSet.last)] else []
  | r :: rest =>
    (min (next last) (previous r.1), max (next last) (previous r.1)) :: gapsAfter r.2 rest

def complement (s : CharSet) : CharSet :=
  match s.ranges with
  | [] => any
  | r :: rest => ⟨(if 0 < r.1 then [(0, previous r.1)] else []) ++ gapsAfter r.2 rest⟩

end CharSet

end Cohort.Unicode
