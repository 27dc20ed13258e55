import Cohort.Regroup.Rules

/-!
# Multi-condition rules

The conditions of all rules are numbered from 1 on, rule by rule, so that of two conditions of one
rule the earlier has the smaller number. Each field that some condition names is swept once, and
every document records the smallest number among the conditions of its group's rule that its terms
satisfy. At the end a document takes the positive group of its number, its rule's negative group if
it has none, or group 0 if no rule targets its group.

· `Ladder` answers for one rule which inequality a term satisfies: its thresholds ascend, each with
  the smallest number among the thresholds from it on, and the sweep drops those it has passed.
· `Sweep.advance` overwrites the smallest number per target for the next term, and `fieldMatches`
  lists the terms that have any.
· `Partition` is the state of the whole pass.
-/

namespace Cohort.Regroup

open Pass

/-- A condition in the list of all rules. -/
structure NumberedCondition where
  target : Nat
  number : Nat
  condition : Condition
  deriving DecidableEq, Repr

/-- Numbers the conditions of all rules from 1 on. -/
def numberConditions (rules : List MultiRule) : List NumberedCondition :=
  ((rules.flatMap fun r => r.conditions.map (r.target, ·)).zipIdx 1).map
    fun ((target, condition), number) => ⟨target, number, condition⟩

/-- A test of one field: `value = term`, or `value ≤ term` for an inequality. -/
structure FieldTest (τ : Type) where
  target : Nat
  number : Nat
  term : τ
  inequality : Bool
  deriving Repr

/-- The inequalities of one rule on one field. -/
structure Ladder (τ : Type) where
  target : Nat
  /-- Thresholds not yet passed, ascending, each with the smallest number from it on. -/
  rungs : List (τ × Nat)
  deriving Repr

/-- The tests of all rules on one field, on the way up its terms. -/
structure Sweep (τ : Type) where
  ladders : List (Ladder τ)
  equalities : List (FieldTest τ)
  /-- The terms that some test can hold of. -/
  selection : TermSelection τ
  /-- For every target, the number that the last term gave it, ascending by target. An entry stays
  until the next term overwrites it. -/
  remap : List (Nat × Nat)
  deriving Repr

/-- Writes the entry of `target` in a table that ascends by target; without a number it takes the
entry out. -/
def overwrite (target : Nat) (number : Option Nat) : List (Nat × Nat) → List (Nat × Nat)
  | [] => (number.map (target, ·)).toList
  | e :: rest =>
    if e.1 < target then e :: overwrite target number rest
    else (number.map (target, ·)).toList ++ if e.1 = target then rest else e :: rest

section Sweeps

variable {τ : Type} [LT τ] [DecidableLT τ] [DecidableEq τ]

/-- Replaces every number by the smallest from it on. -/
def suffixMinima : List (τ × Nat) → List (τ × Nat)
  | [] => []
  | (t, n) :: rest =>
    match suffixMinima rest with
    | [] => [(t, n)]
    | (u, m) :: rest => (t, min n m) :: (u, m) :: rest

namespace Ladder

/-- The inequalities among `tests` that belong to the rule of `target`. -/
def ofTests (tests : List (FieldTest τ)) (target : Nat) : Ladder τ :=
  let thresholds := (tests.filter fun t => t.target == target && t.inequality).map
    fun t => (t.term, t.number)
  ⟨target, suffixMinima (thresholds.mergeSort fun a b => !decide (b.1 < a.1))⟩

/-- Drops the thresholds below `term`. -/
def advance (l : Ladder τ) (term : τ) : Ladder τ :=
  { l with rungs := l.rungs.dropWhile (·.1 < term) }

/-- Smallest number of an inequality that the current term satisfies. -/
def best? (l : Ladder τ) : Option Nat := l.rungs.head?.map (·.2)

end Ladder

namespace Sweep

def ofTests (tests : List (FieldTest τ)) : Sweep τ :=
  let targets := distinctSorted (tests.map (·.target))
  { ladders := targets.map (Ladder.ofTests tests)
    equalities := tests.filter (!·.inequality)
    selection := .ofConditions (tests.map fun t => (t.term, t.inequality))
    remap := [] }

/-- Number of the first equality of `target` with `term`. -/
def equalityFor? (s : Sweep τ) (target : Nat) (term : τ) : Option Nat :=
  (s.equalities.find? fun e => e.target == target && e.term = term).map (·.number)

/-- The smaller of two numbers, where there are any. -/
def smaller? : Option Nat → Option Nat → Option Nat
  | some a, some b => some (min a b)
  | some a, none => some a
  | none, b => b

/-- Moves on to `term`, overwrites the number of every target by the smallest of the conditions that
`term` satisfies, and tells whether there are any. Terms must come in ascending order. -/
def advance (s : Sweep τ) (term : τ) : Sweep τ × Bool :=
  let ladders := s.ladders.map (·.advance term)
  let numbers := ladders.map fun l =>
    (l.target, smaller? l.best? (s.equalityFor? l.target term))
  let remap := numbers.foldl (fun remap e => overwrite e.1 e.2 remap) s.remap
  ({ s with ladders, remap }, numbers.any (·.2.isSome))

/-- The entries that satisfy some condition, each with the numbers that it leaves. -/
def matchesOf (s : Sweep τ) : List (τ × List Nat) → List (τ × List Nat × List (Nat × Nat))
  | [] => []
  | (term, docs) :: rest =>
    let (next, found) := s.advance term
    if found then (term, docs, next.remap) :: next.matchesOf rest
    else next.matchesOf rest

end Sweep

/-- The terms of a field that satisfy some test, each with its documents and the smallest number per
target. -/
def fieldMatches (tests : List (FieldTest τ)) (p : Postings τ) :
    List (τ × List Nat × List (Nat × Nat)) :=
  let sweep := Sweep.ofTests tests
  sweep.matchesOf (sweep.selection.visits p)

end Sweeps

/-- The tests of integer conditions on `field`. -/
def intFieldTests (field : String) (conditions : List NumberedCondition) :
    List (FieldTest Int) :=
  (conditions.filter (·.condition.field == field)).filterMap fun c =>
    match c.condition.term with
    | .int v => some ⟨c.target, c.number, v, c.condition.inequality⟩
    | .str _ => none

/-- The tests of string conditions on `field`. -/
def stringFieldTests (field : String) (conditions : List NumberedCondition) :
    List (FieldTest String) :=
  (conditions.filter (·.condition.field == field)).filterMap fun c =>
    match c.condition.term with
    | .str s => some ⟨c.target, c.number, s, c.condition.inequality⟩
    | .int _ => none

/-- Posting lists to apply one after the other, each with the smallest number per target: integer
fields first, each kind by name, the terms of a field ascending. -/
def matchPlan (shard : Shard) (rules : List MultiRule) : List (List Nat × List (Nat × Nat)) :=
  let numbered := numberConditions rules
  let conditions := numbered.map (·.condition)
  let ints := (fieldNames true conditions).flatMap fun field =>
    (fieldMatches (intFieldTests field numbered) (shard.intPostings field)).map (·.2)
  let strings := (fieldNames false conditions).flatMap fun field =>
    (fieldMatches (stringFieldTests field numbered) (shard.stringPostings field)).map (·.2)
  ints ++ strings

/-- The rule that targets `group`. -/
def ruleFor? (rules : List MultiRule) (group : Nat) : Option MultiRule :=
  rules.find? (·.target == group)

/-- Numbers recorded so far, and the documents that some term matched. Documents of a targeted group
start at a number above all numbers, the others at 0. -/
structure Partition where
  numbers : Grouping
  matched : DocSet

namespace Partition

/-- A number above those of all conditions. -/
def untouched (rules : List MultiRule) : Nat := MultiRule.conditionCountOf rules + 1

/-- Bytes that the numbers take. -/
def numberBytes (rules : List MultiRule) (numDocs : Nat) : Nat :=
  StoredGroups.bytesFor (.fitting (untouched rules)) numDocs

def start? (feed : Feed) (rules : List MultiRule) (g : Grouping) : Option Partition := do
  let mark := untouched rules
  let blank := Grouping.stored (.blank mark feed.numDocs)
  let numbers ← (chunks (max 1 feed.chunk) (List.range feed.numDocs)).foldlM
    (fun numbers docs => do
      let groups ← g.groupsOf? docs
      let marks := groups.map fun group => if (ruleFor? rules group).isSome then mark else 0
      numbers.setAll? docs marks)
    blank
  return ⟨numbers, .empty feed.numDocs⟩

/-- Records that `doc`, which is in `group`, holds a term that satisfies the conditions `numbers`. A
second match is a collision if the group's rule is an equality split and these must not collide. -/
def record (rules : List MultiRule) (errorOnCollisions : Bool) (numbers : List (Nat × Nat))
    (p : Partition) (doc group : Nat) : Except Failure Partition :=
  match numbers.lookup group with
  | none => .ok p
  | some number =>
    match p.matched.insertNew? doc, p.numbers.get? doc with
    | some (seen, matched), some recorded =>
      if seen && errorOnCollisions && (ruleFor? rules group).any (·.splitField?.isSome) then
        .error (.refused (.illegalState (.splitCollision doc group)))
      else if number < recorded then
        match p.numbers.set? doc number with
        | some updated => .ok ⟨updated, matched⟩
        | none => .error .broken
      else .ok { p with matched }
    | _, _ => .error .broken

/-- Records a chunk of a posting list. -/
def recordChunk (g : Grouping) (rules : List MultiRule) (errorOnCollisions : Bool)
    (numbers : List (Nat × Nat)) (p : Partition) (docs : List Nat) : Except Failure Partition :=
  match g.groupsOf? docs with
  | none => .error .broken
  | some groups =>
    (docs.zip groups).foldlM
      (fun p (doc, group) => p.record rules errorOnCollisions numbers doc group) p

/-- Records the matches of all fields. -/
def run (feed : Feed) (g : Grouping) (rules : List MultiRule) (errorOnCollisions : Bool)
    (p : Partition) : Except Failure Partition :=
  (matchPlan feed.shard rules).foldlM
    (fun p (docs, numbers) =>
      drain feed.chunk docs (recordChunk g rules errorOnCollisions numbers) p) p

/-- The grouping that the recorded numbers stand for. -/
def finish? (feed : Feed) (rules : List MultiRule) (p : Partition) (g : Grouping) :
    Option Grouping := do
  let positives := (0 :: rules.flatMap (·.positives)).toArray
  let g ← g.mapGroups? feed.chunk fun doc group =>
    some (if p.matched.contains doc then group
      else ((ruleFor? rules group).map (·.negative)).getD 0)
  p.matched.toList.foldlM (fun g doc => do
    let number ← p.numbers.get? doc
    let group ← positives[number]?
    g.set? doc group) g

end Partition

/-- Ends the call early if `result` is a failure. -/
def orFail {α : Type} : Except Failure α → Pass α
  | .ok a => pure a
  | .error e => throw e

/-- Checks the rules and returns their highest target. -/
def checkMultiRules (rules : List MultiRule) : Except Error Nat := do
  let highest ← MultiRule.checkTargets rules
  MultiRule.checkSplits rules
  return highest

/-- Applies multi-condition rules; returns the new number of groups. Nothing is written before all
fields were swept. The number of conditions, that of an untouched document and those that the
conditions get must all be ids. -/
def byMultiRules (feed : Feed) (rules : List MultiRule) (errorOnCollisions : Bool) : Pass Nat :=
  unlessFilteredOut fun n => do
    if rules.isEmpty then
      replace 0
      return 1
    let count ← orBroken (asId? (MultiRule.conditionCountOf rules))
    let checkBytes := max (rules.length * 4) (count * 8)
    let highest ← scratch checkBytes fun _ => orRefused (checkMultiRules rules)
    if MultiRule.isIdentityList rules n then return n
    makeRoom (max (max n highest) (MultiRule.maxGroupOf rules))
    scratch (MultiRule.workBytes rules highest n) fun _ => do
      let _ ← orBroken (asId? (Partition.untouched rules))
      scratch feed.setBytes fun _ =>
        scratch (Partition.numberBytes rules feed.numDocs) fun _ => do
          let g ← grouping
          let p ← orBroken (Partition.start? feed rules g)
          let _ ← orBroken (asId? (MultiRule.numConditions rules))
          let p ← orFail (p.run feed g rules errorOnCollisions)
          change (p.finish? feed rules)
          recount

end Cohort.Regroup
