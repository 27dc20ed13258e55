import Cohort.Chunk
import Cohort.DocSet
import Cohort.Memory.Charge
import Cohort.Query.Basic
import Cohort.Shard.Basic

/-!
# Searching: the documents that satisfy a query

`search` builds one document set per level of the query and charges each to the ledger while it
lives; the set of the whole query stays charged. `satisfies` says, document by document, what a
query means.
-/

namespace Cohort

/-- Documents read from a posting list at a time. -/
def searchBuffer : Nat := 1024

/-- Inserts the documents of a posting list. -/
def DocSet.mark? (s : DocSet) (docs : List Nat) : Option DocSet :=
  drain searchBuffer docs (fun s chunk => chunk.foldlM DocSet.insert? s) s

namespace Query

/-- The terms from `min` on, up to `max`. -/
def termsBetween {τ : Type} [LT τ] [DecidableLT τ] [DecidableEq τ] (p : Postings τ) (min max : τ)
    (inclusive : Bool) : List (τ × List Nat) :=
  (p.startingAt min).takeWhile fun e => e.1 < max || (e.1 = max && inclusive)

/-- The posting lists whose union answers a test of one field. -/
def postingLists (shard : Shard) : Query → List (List Nat)
  | term field (.int v) => ((shard.intPostings field).find? v).toList
  | term field (.str v) => ((shard.stringPostings field).find? v).toList
  | intRange field min max inclusive =>
    (termsBetween (shard.intPostings field) min max inclusive).map (·.2)
  | stringRange field min max inclusive =>
    (termsBetween (shard.stringPostings field) min max inclusive).map (·.2)
  | _ => []

mutual

/-- The documents that satisfy `q`; the bytes of the result stay claimed. -/
def search (shard : Shard) (q : Query) : Memory.Charge DocSet :=
  let bytes := DocSet.bytesFor shard.numDocs
  match q with
  | and parts =>
    Memory.holding bytes fun _ =>
      narrow shard DocSet.inter? (DocSet.full shard.numDocs) parts
  | or parts =>
    Memory.holding bytes fun _ =>
      narrow shard DocSet.union? (DocSet.empty shard.numDocs) parts
  | not part => do return (← search shard part).complement
  | leaf =>
    Memory.holding bytes fun _ =>
      orBroken ((postingLists shard leaf).foldlM DocSet.mark? (DocSet.empty shard.numDocs))

/-- Joins the results of `parts` into `acc`, one after the other. -/
def narrow (shard : Shard) (join? : DocSet → DocSet → Option DocSet) (acc : DocSet) :
    List Query → Memory.Charge DocSet
  | [] => pure acc
  | part :: parts => do
    let found ← search shard part
    let joined ← orBroken (join? acc found)
    Memory.release (DocSet.bytesFor shard.numDocs)
    narrow shard join? joined parts

end

/-- Whether a value lies in a range. -/
def inRange {τ : Type} [LT τ] [DecidableLT τ] [DecidableEq τ] (min max : τ) (inclusive : Bool)
    (v : τ) : Bool :=
  !decide (v < min) && (v < max || (v = max && inclusive))

/-- Whether document `doc` satisfies a query, judged by the values it holds. -/
def satisfies (shard : Shard) (doc : Nat) : Query → Bool
  | term field (.int v) => (shard.intValues field doc).contains v
  | term field (.str v) => (shard.stringValues field doc).contains v
  | intRange field min max inclusive =>
    (shard.intValues field doc).any (inRange min max inclusive)
  | stringRange field min max inclusive =>
    (shard.stringValues field doc).any (inRange min max inclusive)
  | and parts => parts.attach.all fun ⟨q, _⟩ => q.satisfies shard doc
  | or parts => parts.attach.any fun ⟨q, _⟩ => q.satisfies shard doc
  | not part => !part.satisfies shard doc

end Query

end Cohort
