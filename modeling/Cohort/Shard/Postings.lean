/-!
# Postings: the terms of one field and the documents that hold them

Terms are strictly ascending, and so are the documents of each term. `add` keeps both. A `Cursor`
walks the terms: it stands between two of them and reads the one before it.
-/

namespace Cohort

/-- Inserts into a strictly ascending list. -/
def insertAscending (d : Nat) : List Nat → List Nat
  | [] => [d]
  | e :: rest =>
    if d < e then d :: e :: rest
    else if d = e then e :: rest
    else e :: insertAscending d rest

structure Postings (τ : Type) where
  entries : List (τ × List Nat)
  deriving Repr

namespace Postings

variable {τ : Type}

def empty : Postings τ := ⟨[]⟩

section Order

variable [LT τ] [DecidableLT τ] [DecidableEq τ]

/-- Records that `doc` holds `term`, in a strictly ascending list of entries. -/
def addEntry (term : τ) (doc : Nat) : List (τ × List Nat) → List (τ × List Nat)
  | [] => [(term, [doc])]
  | (t, docs) :: rest =>
    if term < t then (term, [doc]) :: (t, docs) :: rest
    else if term = t then (t, insertAscending doc docs) :: rest
    else (t, docs) :: addEntry term doc rest

def add (p : Postings τ) (term : τ) (doc : Nat) : Postings τ :=
  ⟨addEntry term doc p.entries⟩

/-- The entries with a term at or above `term`. -/
def startingAt (p : Postings τ) (term : τ) : List (τ × List Nat) :=
  p.entries.dropWhile (·.1 < term)

/-- The documents that hold `term`, if any does. -/
def find? (p : Postings τ) (term : τ) : Option (List Nat) :=
  match p.startingAt term with
  | (t, docs) :: _ => if t = term then some docs else none
  | [] => none

/-- The entries with a term at or below `term`. -/
def upTo (p : Postings τ) (term : τ) : List (τ × List Nat) :=
  p.entries.takeWhile fun e => !decide (term < e.1)

end Order

/-- The terms that `doc` holds, ascending. -/
def valuesOf (p : Postings τ) (doc : Nat) : List τ :=
  (p.entries.filter fun e => e.2.contains doc).map (·.1)

/-- Sum of the lengths of all posting lists. -/
def totalDocFreq (p : Postings τ) : Nat :=
  p.entries.foldr (·.2.length + ·) 0

end Postings

/-- A walk over the terms of a field; `position` counts the terms already passed. -/
structure Cursor (τ : Type) where
  postings : Postings τ
  position : Nat

namespace Cursor

variable {τ : Type}

def start (p : Postings τ) : Cursor τ := ⟨p, 0⟩

/-- Stands before the first term at or above `term`. -/
def reset [LT τ] [DecidableLT τ] (c : Cursor τ) (term : τ) : Cursor τ :=
  { c with position := (c.postings.entries.takeWhile (·.1 < term)).length }

/-- Passes one more term, if there is one. -/
def next? (c : Cursor τ) : Option (Cursor τ) :=
  if c.position < c.postings.entries.length then some { c with position := c.position + 1 }
  else none

/-- The entry just passed. -/
def current? (c : Cursor τ) : Option (τ × List Nat) :=
  if c.position = 0 then none else c.postings.entries[c.position - 1]?

/-- Passes the first term at or above `term`; gives its documents if it is `term` itself. -/
def seekExact [LT τ] [DecidableLT τ] [DecidableEq τ] (c : Cursor τ) (term : τ) :
    Cursor τ × Option (List Nat) :=
  match (c.reset term).next? with
  | none => (c.reset term, none)
  | some c => (c, c.current?.bind fun e => if e.1 = term then some e.2 else none)

end Cursor

end Cohort
