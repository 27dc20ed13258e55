import Cohort.Grouping.Basic
import Cohort.Regroup.Rules
import Cohort.Word

/-!
# Dynamic metrics: a counter per document

Counters start at 0, outlive regroups and wrap around at 32 bits. They are moved by group, by term,
or by term within a group.
-/

namespace Cohort

/-- One counter per document. -/
abbrev Counters := Array Int

namespace Counters

def zero (numDocs : Nat) : Counters := .replicate numDocs 0

def bytesFor (numDocs : Nat) : Nat := numDocs * 4

def bytes (c : Counters) : Nat := bytesFor c.size

def add? (c : Counters) (doc : Nat) (delta : Int) : Option Counters :=
  if doc < c.size then some (c.modify doc fun v => wrap32 (v + delta)) else none

/-- The counters as values that can be pushed as a stat. -/
def snapshot (c : Counters) : ValueTable := .dense c

/-- Adds the delta of its group to every document whose group has one. -/
def addByGroup? (c : Counters) (g : Grouping) (chunk : Nat) (deltas : List Int) :
    Option Counters :=
  let deltas := deltas.toArray
  (chunks (max 1 chunk) (List.range g.len)).foldlM (fun c docs => do
    let groups ← g.groupsOf? docs
    (docs.zip groups).foldlM
      (fun c (doc, group) =>
        match deltas[group]? with
        | some delta => add? c doc delta
        | none => some c) c) c

end Counters

/-! ### Updates by term -/

section Terms

variable {τ π σ : Type}

/-- The terms that conditions on `field` ask for, as far as `read` finds them of its kind, with what
comes with each. -/
def termsOf (read : Term → Option τ) (field : String) (entries : List (Condition × π)) :
    List (τ × π) :=
  (entries.filter (·.1.field == field)).filterMap fun (c, payload) =>
    (read c.term).map (·, payload)

variable [LT τ] [DecidableLT τ] [DecidableEq τ]

/-- Visits the documents of a term with what comes with it, a chunk at a time, if the field holds
the term. -/
def visitTerm? (chunk : Nat) (visit : π → σ → List Nat → Option σ) (s : Cursor τ × σ) (e : τ × π) :
    Option (Cursor τ × σ) :=
  match s.1.seekExact e.1 with
  | (cursor, none) => some (cursor, s.2)
  | (cursor, some docs) => (drain chunk docs (visit e.2) s.2).map (cursor, ·)

/-- Visits all listed terms in their order. -/
def visitTerms? (chunk : Nat) (postings : Postings τ) (terms : List (τ × π))
    (visit : π → σ → List Nat → Option σ) (s : σ) : Option σ :=
  ((terms.mergeSort fun a b => !decide (b.1 < a.1)).foldlM (visitTerm? chunk visit)
    (Cursor.start postings, s)).map (·.2)

end Terms

namespace Counters

/-- Conditions need one delta each and must be equalities. -/
def checkConditions (conditions : List Condition) (deltas : Nat) : Except Error Unit := do
  require (conditions.length = deltas) (.deltaCount deltas conditions.length)
  match conditions.find? (·.inequality) with
  | some c => .error (.invalidArgument (.inequalityUpdate c.field))
  | none => .ok ()

/-- Adds a delta to every one of some documents. -/
def addToAll? (delta : Int) (c : Counters) (docs : List Nat) : Option Counters :=
  docs.foldlM (fun c doc => add? c doc delta) c

/-- Adds the deltas of the conditions on one field, those on strings before those on integers. -/
def addByField? (feed : Feed) (entries : List (Condition × Int)) (c : Counters) (field : String) :
    Option Counters := do
  let strings := termsOf Term.str? field entries
  let ints := termsOf Term.int? field entries
  let c ← visitTerms? feed.chunk (feed.shard.stringPostings field) strings addToAll? c
  visitTerms? feed.chunk (feed.shard.intPostings field) ints addToAll? c

/-- Adds each delta to every document that holds the term of its condition, whatever its group. -/
def addByTerm? (c : Counters) (feed : Feed) (conditions : List Condition) (deltas : List Int) :
    Option Counters :=
  (Regroup.distinctSorted (conditions.map (·.field))).foldlM
    (addByField? feed (conditions.zip deltas)) c

/-! ### Updates by term within a group -/

/-- A delta for the documents of one group. -/
structure GroupDelta where
  group : Nat
  delta : Int
  deriving DecidableEq, Repr

/-- The groups must be as many as the conditions. -/
def checkGroups (groups : Nat) (conditions : List Condition) (deltas : Nat) :
    Except Error Unit := do
  require (groups = conditions.length) (.groupCount groups conditions.length)
  checkConditions conditions deltas

/-- The entries whose group exists. -/
def liveEntries (numGroups : Nat) (groups : List Nat) (conditions : List Condition)
    (deltas : List Int) : List (Condition × GroupDelta) :=
  ((groups.zip (conditions.zip deltas)).map fun (g, c, d) => (c, GroupDelta.mk g d)).filter
    (·.2.group < numGroups)

/-- The deltas that are listed for each term, in their order; terms ascending. -/
def byTerm {τ : Type} [LT τ] [DecidableLT τ] [DecidableEq τ] (entries : List (τ × GroupDelta)) :
    List (τ × List GroupDelta) :=
  (Regroup.distinctSorted (entries.map (·.1))).map fun t =>
    (t, (entries.filter (·.1 = t)).map (·.2))

/-- The delta of every group for the term that is being visited. -/
abbrev DeltaTable := Array (Option Int)

namespace DeltaTable

/-- No group has a delta. -/
def blank (numGroups : Nat) : DeltaTable := .replicate numGroups none

def set? (t : DeltaTable) (group : Nat) (delta : Option Int) : Option DeltaTable :=
  if group < t.size then some (t.setIfInBounds group delta) else none

/-- Writes the deltas of a term; of several for one group the last one stays. -/
def fill? (t : DeltaTable) (deltas : List GroupDelta) : Option DeltaTable :=
  deltas.foldlM (fun t e => t.set? e.group (some e.delta)) t

/-- Takes the deltas of a term out again. -/
def clear? (t : DeltaTable) (deltas : List GroupDelta) : Option DeltaTable :=
  deltas.foldlM (fun t e => t.set? e.group none) t

end DeltaTable

/-- Adds to some documents that hold a term the deltas of their groups for it. The table is blank
before and after. -/
def addByTable? (g : Grouping) (deltas : List GroupDelta) (s : Counters × DeltaTable)
    (docs : List Nat) : Option (Counters × DeltaTable) := do
  let (c, table) := s
  let table ← table.fill? deltas
  let groups ← g.groupsOf? docs
  let c ← (docs.zip groups).foldlM
    (fun c (doc, group) => do
      match ← table[group]? with
      | some delta => add? c doc delta
      | none => return c) c
  return (c, ← table.clear? deltas)

/-- Adds the deltas of the groups for the terms of one field. -/
def addByFieldTable? {τ : Type} [LT τ] [DecidableLT τ] [DecidableEq τ] (chunk : Nat) (g : Grouping)
    (postings : Postings τ) (terms : List (τ × GroupDelta)) (s : Counters × DeltaTable) :
    Option (Counters × DeltaTable) :=
  visitTerms? chunk postings (byTerm terms) (addByTable? g) s

/-- Adds to every document that holds a listed term the last delta listed for its group and that
term; every term counts once. -/
def addByGroupAndTerm? (c : Counters) (feed : Feed) (g : Grouping)
    (entries : List (Condition × GroupDelta)) : Option Counters := do
  let conditions := entries.map (·.1)
  let s ← (Regroup.fieldNames true conditions).foldlM
    (fun s field => addByFieldTable? feed.chunk g (feed.shard.intPostings field)
      (termsOf Term.int? field entries) s)
    (c, DeltaTable.blank g.numGroups)
  let s ← (Regroup.fieldNames false conditions).foldlM
    (fun s field => addByFieldTable? feed.chunk g (feed.shard.stringPostings field)
      (termsOf Term.str? field entries) s) s
  return s.1

end Counters

end Cohort
