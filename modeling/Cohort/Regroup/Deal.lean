import Cohort.Hash.Cuts
import Cohort.Hash.Salted
import Cohort.Regroup.Rules

/-!
# Random splits

The documents of the target are dealt out by the hash of a term they hold, the smallest one, or of
their value in a metric. `Deal` says how hashes are cut into buckets and which group each bucket
becomes. Nothing here depends on which function the hash is.
-/

namespace Cohort.Regroup

open Pass

structure Deal where
  target : Nat
  fractions : List Binary64
  results : List Nat
  deriving Repr

namespace Deal

/-- A two-way split: the fraction `p` of the hash range is negative, the rest positive. -/
def twoWay (split : Split) (p : Binary64) : Deal :=
  ⟨split.target, [p], [split.negative, split.positive]⟩

/-- Checks the split and makes room for its groups. -/
def setUp (d : Deal) : Pass Unit := do
  orRefused (checkFractions d.fractions d.results)
  makeRoom (d.results.foldl max 0)

/-- The group of documents with a given hash. -/
def groupFor? (d : Deal) (hash : Nat) : Option Nat :=
  d.results[(HashCuts.ofFractions d.fractions).bucketOf hash]?

end Deal

/-- Deals out by posting lists, each with the hash of its term. Documents that none holds go to
`unmatched`, or stay where they are. -/
def dealByPostings (feed : Feed) (lists : List (Nat × List Nat)) (d : Deal)
    (unmatched : Option Nat) : Pass Nat :=
  unlessFilteredOut fun _ => do
    d.setUp
    scratch feed.setBytes fun _ => do
      change fun g => do
        let m ← lists.foldlM
          (fun (m : Marking) (hash, docs) => do
            let group ← d.groupFor? hash
            m.visitAll? feed.chunk (fun g => if g = d.target then some group else none) docs)
          (.start g feed.numDocs)
        match unmatched with
        | none => return m.grouping
        | some fallback =>
          m.finish? feed.chunk fun group => if group = d.target then fallback else group
      recount

/-- The posting lists of a field with the hashes of their terms, ascending by term. -/
def hashedPostings (shard : Shard) (hash : SaltedHash) (field : String) (isInt : Bool) :
    List (Nat × List Nat) :=
  if isInt then
    (shard.intPostings field).entries.map fun (term, docs) => (hash.ofInt term, docs)
  else
    (shard.stringPostings field).entries.map fun (term, docs) => (hash.ofString term, docs)

/-- Deals out by the terms of a field. -/
def dealByField (feed : Feed) (hash : SaltedHash) (field : String) (isInt : Bool) (d : Deal)
    (unmatched : Option Nat) : Pass Nat :=
  dealByPostings feed (hashedPostings feed.shard hash field isInt) d unmatched

/-- Deals out a chunk of documents by their values, which are only read if the chunk holds a
document of the target. -/
def dealChunk? (hash : SaltedHash) (d : Deal) (values : ValueTable) (g : Grouping)
    (docs : List Nat) : Option Grouping := do
  let groups ← g.groupsOf? docs
  if groups.contains d.target then
    let values ← values.valuesOf? docs
    let written ← (groups.zip values).mapM fun (group, value) =>
      if group = d.target then d.groupFor? (hash.ofInt value) else some group
    g.setAll? docs written
  else some g

/-- Deals out by the values of a metric. -/
def dealByValues (feed : Feed) (hash : SaltedHash) (values : ValueTable) (d : Deal) :
    Pass Nat :=
  unlessFilteredOut fun _ => do
    d.setUp
    change fun g =>
      (chunks (max 1 feed.chunk) (List.range feed.numDocs)).foldlM (dealChunk? hash d values) g
    recount

end Cohort.Regroup
