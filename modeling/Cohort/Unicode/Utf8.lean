/-!
# UTF-8 forms of ranges of characters

A range of code points falls into pieces whose UTF-8 forms are all combinations of bytes from one
range per position. `pieces` cuts a range where the number of bytes changes, and where more than the
last byte changes without all later bytes running from end to end.
-/

namespace Cohort.Unicode.Utf8

/-- The bytes of a code point. -/
def encode (x : Nat) : List Nat :=
  if x < 0x80 then [x]
  else if x < 0x800 then [0xc0 + x / 64, 0x80 + x % 64]
  else if x < 0x10000 then [0xe0 + x / 4096, 0x80 + x / 64 % 64, 0x80 + x % 64]
  else [0xf0 + x / 262144, 0x80 + x / 4096 % 64, 0x80 + x / 64 % 64, 0x80 + x % 64]

/-- The last code points with one, two and three bytes. -/
def lengthEnds : List Nat := [0x7f, 0x7ff, 0xffff]

/-- Where to cut a range so that blocks of `size` code points stay whole: the last code point before
the cut. -/
def blockCut? (first last size : Nat) : Option Nat :=
  if first / size = last / size then none
  else if first % size ≠ 0 then some (first / size * size + (size - 1))
  else if last % size ≠ size - 1 then some (last / size * size - 1)
  else none

/-- The first cut that a range needs. -/
def cut? (first last : Nat) : Option Nat :=
  match lengthEnds.find? fun e => first ≤ e && e < last with
  | some e => some e
  | none =>
    if last < 0x80 then none
    else [64, 4096, 262144].findSome? (blockCut? first last)

/-- The pieces of a range without surrogates, each with its range of bytes per position. -/
def piecesWithin (first last : Nat) : List (List (Nat × Nat)) :=
  match cut? first last with
  | none => [(encode first).zip (encode last)]
  | some m =>
    if _h : first ≤ m ∧ m < last then piecesWithin first m ++ piecesWithin (m + 1) last
    else []
termination_by last - first
decreasing_by all_goals omega

/-- The pieces of a range. -/
def pieces (first last : Nat) : List (List (Nat × Nat)) :=
  if first < 0xe000 && 0xd7ff < last then
    piecesWithin first 0xd7ff ++ piecesWithin 0xe000 last
  else piecesWithin first last

end Cohort.Unicode.Utf8
