import Cohort.Rule.Basic
import Cohort.Shard.Basic
import Cohort.Word

/-!
# Meaning: what rules and buckets mean for one document

These functions judge every document on its own, by the values that it holds. They take the groups
before a regroup and give the groups after it. Once all documents are in group 0 they stay there.
-/

namespace Cohort.Meaning

/-- One more than the largest group; 1 if there are no documents. -/
def numGroups (groups : List Nat) : Nat := groups.foldl max 0 + 1

/-- Whether a document satisfies a condition: some value that it holds does. -/
def satisfies (shard : Shard) (doc : Nat) (c : Condition) : Bool :=
  if c.isInt then (shard.intValues c.field doc).any c.matchesInt
  else (shard.stringValues c.field doc).any c.matchesString

/-- Where a rule sends a document: to the positive group of the first condition that it satisfies,
else to the negative group. A condition without a positive group gives `none`. -/
def destination? (shard : Shard) (doc : Nat) (r : MultiRule) : Option Nat :=
  match r.conditions.findIdx? (satisfies shard doc) with
  | some i => r.positives[i]?
  | none => some r.negative

/-- Multi-condition rules; documents of a group that no rule targets go to group 0. -/
def multiRules? (shard : Shard) (groups : List Nat) (rules : List MultiRule) :
    Option (List Nat) :=
  if numGroups groups ≤ 1 then some groups
  else groups.zipIdx.mapM fun (group, doc) =>
    match rules.find? (·.target == group) with
    | none => some 0
    | some r => destination? shard doc r

/-- Single-condition rules. -/
def rules? (shard : Shard) (groups : List Nat) (rules : List Rule) : Option (List Nat) :=
  multiRules? shard groups (rules.map Rule.toMulti)

/-- Number of intervals that `[min, max)` is cut into. -/
def bucketCount (min max width : Int) : Nat :=
  (((max - 1 - min).tdiv width + 1) % wordBound).toNat

/-- The bucket of a value: the intervals of `[min, max)` from 1 on, then one below and one above;
these two are bucket 0 if there are no gutters. -/
def bucket? (min max width : Int) (noGutters : Bool) (value : Int) : Option Nat :=
  let count := bucketCount min max width
  if value < min then if noGutters then some 0 else word? (count + 1)
  else if max ≤ value then if noGutters then some 0 else word? (count + 2)
  else word? (((value - min).tdiv width % wordBound).toNat + 1)

/-- The new group of a document of `group`, with `total` buckets per group. -/
def composed? (group bucket total : Nat) : Option Nat :=
  if group = 0 || bucket = 0 then some 0
  else (word? ((group - 1) * total + bucket)).map (· % halfWordBound)

/-- Splits every group by buckets, the buckets of one group after those of the one before. Unless
all documents are in group 0, intervals must not be empty. -/
def buckets? (groups : List Nat) (values : List Int) (min max width : Int) (noGutters : Bool) :
    Option (List Nat) :=
  if numGroups groups ≤ 1 then some groups
  else if width = 0 then none
  else do
    let count := bucketCount min max width
    let total ← if noGutters then some count else word? (count + 2)
    (groups.zip values).mapM fun (group, value) => do
      composed? group (← bucket? min max width noGutters value) total

end Cohort.Meaning
