import Cohort.Query.Search
import Cohort.Regroup.Feed

/-!
# Splitting one group

The documents of the target go to the positive group if they pass a test and to the negative group
otherwise; all others stay. The test is a list of terms, a predicate on strings, or a query.
-/

namespace Cohort.Regroup

open Pass

/-- The group that a document which passes the test is sent to. -/
def passing (split : Split) (group : Nat) : Option Nat :=
  if group = split.target then some split.positive else none

/-- Splits by the posting lists `lists`: their documents pass. -/
def splitByPostings (feed : Feed) (lists : List (List Nat)) (split : Split) : Pass Nat := do
  makeRoom split.maxGroup
  scratch feed.setBytes fun _ => do
    change fun g => do
      let m ← lists.foldlM (Marking.visitAll? feed.chunk (passing split))
        (.start g feed.numDocs)
      m.finish? feed.chunk fun group => if group = split.target then split.negative else group
    recount

/-- Ascending and without repetitions. -/
def distinctSorted {τ : Type} [LT τ] [DecidableLT τ] [BEq τ] (terms : List τ) : List τ :=
  (terms.mergeSort fun a b => !decide (b < a)).eraseReps

/-- Documents that hold any of `terms` pass. -/
def splitByAny {τ : Type} [LT τ] [DecidableLT τ] [DecidableEq τ] (feed : Feed)
    (postings : Postings τ) (terms : List τ) (split : Split) : Pass Nat :=
  unlessFilteredOut fun _ =>
    splitByPostings feed ((distinctSorted terms).filterMap postings.find?) split

/-- Documents that satisfy the query pass. -/
def splitByQuery (feed : Feed) (rule : QueryRule) : Pass Nat :=
  unlessFilteredOut fun _ => do
    let docs ← onLedger (rule.query.search feed.shard)
    try
      makeRoom rule.split.maxGroup
      change (·.splitBy? docs rule.split)
      recount
    finally onLedger (Memory.release feed.setBytes)

end Cohort.Regroup
