import Cohort.Regroup.Feed
import Cohort.Regroup.Split
import Cohort.Rule.Check

/-!
# Single-condition rules

Every group may have one rule with one condition. Each field that some condition names is visited
once: its terms up to the greatest threshold of an inequality, then the single terms above it. A
document moves when the first term that satisfies its rule comes by; those that never move take
their rule's negative group, or group 0 if no rule targets their group.
-/

namespace Cohort.Regroup

open Pass

/-- The terms of a field that conditions with the given `(term, inequality)` can hold of: the
greatest threshold, and the equality terms above it. -/
structure TermSelection (τ : Type) where
  upTo : Option τ
  points : List τ
  deriving Repr

namespace TermSelection

variable {τ : Type} [LT τ] [DecidableLT τ] [DecidableEq τ]

/-- Greatest of the thresholds, if there are any. -/
def greatest? : List τ → Option τ
  | [] => none
  | t :: ts => some (ts.foldl (fun best t => if best < t then t else best) t)

def ofConditions (conditions : List (τ × Bool)) : TermSelection τ :=
  let upTo := greatest? ((conditions.filter (·.2)).map (·.1))
  let equal := (conditions.filter (!·.2)).map (·.1)
  ⟨upTo, distinctSorted (equal.filter fun t => upTo.all (· < t))⟩

/-- The selected entries of a field, ascending. -/
def visits (s : TermSelection τ) (p : Postings τ) : List (τ × List Nat) :=
  (s.upTo.map p.upTo).getD [] ++ s.points.filterMap fun t => (p.find? t).map (t, ·)

end TermSelection

/-- The group that a document holding a term is sent to, if its rule's condition `holds`. -/
def ruleDestination (rules : List Rule) (field : String) (isInt : Bool)
    (holds : Condition → Bool) (group : Nat) : Option Nat := do
  let rule ← Rule.forGroup? rules group
  if rule.condition.field = field && rule.condition.isInt == isInt && holds rule.condition then
    some rule.positive
  else none

/-- The names of the fields that conditions of one type test, ascending. -/
def fieldNames (isInt : Bool) (conditions : List Condition) : List String :=
  distinctSorted ((conditions.filter (·.isInt == isInt)).map (·.field))

/-- The integer conditions on `field`, as `(term, inequality)`. -/
def intTests (field : String) (conditions : List Condition) : List (Int × Bool) :=
  (conditions.filter (·.field == field)).filterMap fun c =>
    match c.term with
    | .int v => some (v, c.inequality)
    | .str _ => none

/-- The string conditions on `field`, as `(term, inequality)`. -/
def stringTests (field : String) (conditions : List Condition) : List (String × Bool) :=
  (conditions.filter (·.field == field)).filterMap fun c =>
    match c.term with
    | .str s => some (s, c.inequality)
    | .int _ => none

/-- Moves documents by the terms of an integer field. -/
def visitIntField? (feed : Feed) (rules : List Rule) (m : Marking) (field : String) :
    Option Marking :=
  let selection := TermSelection.ofConditions (intTests field (rules.map (·.condition)))
  (selection.visits (feed.shard.intPostings field)).foldlM
    (fun m (term, docs) =>
      m.visitAll? feed.chunk (ruleDestination rules field true (·.matchesInt term)) docs) m

/-- Moves documents by the terms of a string field. -/
def visitStringField? (feed : Feed) (rules : List Rule) (m : Marking) (field : String) :
    Option Marking :=
  let selection := TermSelection.ofConditions (stringTests field (rules.map (·.condition)))
  (selection.visits (feed.shard.stringPostings field)).foldlM
    (fun m (term, docs) =>
      m.visitAll? feed.chunk (ruleDestination rules field false (·.matchesString term)) docs) m

/-- The grouping after all fields were visited and the rest was sent to the negative groups. -/
def applyRules? (feed : Feed) (rules : List Rule) (g : Grouping) : Option Grouping := do
  let conditions := rules.map (·.condition)
  let m ← (fieldNames true conditions).foldlM (visitIntField? feed rules)
    (.start g feed.numDocs)
  let m ← (fieldNames false conditions).foldlM (visitStringField? feed rules) m
  m.finish? feed.chunk fun group => ((Rule.forGroup? rules group).map (·.negative)).getD 0

/-- Applies single-condition rules; returns the new number of groups. -/
def byRules (feed : Feed) (rules : List Rule) : Pass Nat :=
  unlessFilteredOut fun n =>
    scratch (n * 8) fun _ => do
      let live ← orRefused (Rule.live rules n)
      makeRoom ((live.map Rule.maxGroup).foldl max 0)
      scratch feed.setBytes fun _ => do
        change (applyRules? feed live)
        recount

end Cohort.Regroup
