import Cohort.Config
import Cohort.Memory.Buffers
import Cohort.Regex.Engine
import Cohort.Regroup.Values
import Cohort.Regroup.MultiRules
import Cohort.Regroup.Deal
import Cohort.Regroup.Remap
import Cohort.Session.Counters
import Cohort.Session.StatStack

/-!
# Sessions: regrouping the documents of a shard step by step

A session starts with every document in group 1. Regroups move documents between groups; group 0
holds those that are filtered out. A call that fails keeps the groups, the stats and the metrics as
they were and gives back what it claimed, though the grouping may stay wider.
-/

namespace Cohort

structure Session where
  shard : Shard
  config : Config
  ledger : Memory.Ledger
  buffers : Memory.BufferPool
  grouping : Grouping
  stats : StatStack
  metrics : List (String × Counters)
  /-- Number of documents in group 0, if it was counted since the last regroup. -/
  zeroCount : Option Nat
  deriving Repr

/-- A computation on a session. -/
abbrev Call := EStateM Failure Session

namespace Session

variable {α : Type}

/-- Starts a session that draws on `ledger`; the ledger afterwards is part of the session. -/
def start (shard : Shard) (ledger : Memory.Ledger) (config : Config) : Except Failure Session :=
  match config.validate >>= fun _ => require (shard.numDocs ≤ maxId) .tooManyDocuments with
  | .error e => .error (.refused e)
  | .ok _ =>
    match Memory.BufferPool.create config.bufferSize config.pooledBuffers ledger with
    | .error e _ => .error e
    | .ok buffers ledger =>
      .ok {
        shard, config, ledger, buffers
        grouping := .constant 1 shard.numDocs
        stats := .empty config.maxStats
        metrics := []
        zeroCount := none }

/-- Runs a computation on the session's ledger. -/
def onLedger (x : Memory.Charge α) : Call α := fun s =>
  match x s.ledger with
  | .ok a l => .ok a { s with ledger := l }
  | .error e l => .error e { s with ledger := l }

/-- Runs a pass over the session's grouping. -/
def onGrouping (x : Pass α) : Call α := fun s =>
  match x ⟨s.ledger, s.grouping⟩ with
  | .ok a w => .ok a { s with ledger := w.ledger, grouping := w.grouping }
  | .error e w => .error e { s with ledger := w.ledger, grouping := w.grouping }

/-- Runs `body` with a set of scratch buffers. -/
def withBuffers (body : Feed → Call α) : Call α := do
  let s ← get
  let taken ← onLedger s.buffers.take
  modify ({ · with buffers := taken })
  try body ⟨s.shard, s.config.bufferSize⟩
  finally
    let kept ← onLedger taken.giveBack
    modify ({ · with buffers := kept })

/-- Runs a regroup and returns its number of groups. -/
def regroup (body : Session → Feed → Pass Nat) : Call Nat :=
  withBuffers fun feed => do
    let s ← get
    try onGrouping (body s feed)
    finally modify ({ · with zeroCount := none })

/-! ### Regroups -/

def regroupMulti (rules : List MultiRule) (errorOnCollisions : Bool) : Call Nat :=
  regroup fun _ feed => Regroup.byMultiRules feed rules errorOnCollisions

def regroupRules (rules : List Rule) : Call Nat :=
  regroup fun _ feed => Regroup.byRules feed rules

/-- Documents of the target that hold one of the integers pass. -/
def intOr (field : String) (terms : List Int) (split : Split) : Call Nat :=
  regroup fun _ feed =>
    Regroup.splitByAny feed (feed.shard.intPostings field) terms split

/-- Documents of the target that hold one of the strings pass. -/
def stringOr (field : String) (terms : List String) (split : Split) : Call Nat :=
  regroup fun _ feed =>
    Regroup.splitByAny feed (feed.shard.stringPostings field) terms split

/-- Documents of the target that hold a string in which the engine finds the enclosed pattern pass.
Only sessions with one group left can be split so. -/
abbrev regexBy (engine : Regex.Engine) (field pattern : String) (split : Split) : Call Nat :=
  regroup fun _ feed => do
    let n := (← Pass.grouping).numGroups
    if 2 < n then throw (.refused (.illegalState (.tooManyGroups (n - 1))))
    Pass.unlessFilteredOut fun _ => do
      match engine.enclosed? pattern with
      | none => throw (.refused (.invalidRegex pattern))
      | some re =>
        let entries := (feed.shard.stringPostings field).entries
        let found := entries.filter fun e => engine.isMatch re e.1
        Regroup.splitByPostings feed (found.map (·.2)) split

/-- Documents of the target that hold a string which the pattern is to match as a whole pass. -/
def regex (field pattern : String) (split : Split) : Call Nat :=
  regexBy .standard field pattern split

def regroupQuery (rule : QueryRule) : Call Nat :=
  regroup fun _ feed => Regroup.splitByQuery feed rule

/-- Deals out by the hashes of the terms of a field. Documents without one go to `unmatched`, or
stay. -/
abbrev dealByTerms (hash : SaltedHash) (field : String) (isInt : Bool) (deal : Regroup.Deal)
    (unmatched : Option Nat) : Call Nat :=
  regroup fun _ feed => Regroup.dealByField feed hash field isInt deal unmatched

/-- Deals out two ways by the terms of a field; documents without one are negative. -/
def random (field : String) (isInt : Bool) (salt : String) (p : Binary64) (split : Split) :
    Call Nat :=
  dealByTerms (.xxh3 salt) field isInt (.twoWay split p) (some split.negative)

/-- Deals out by the terms of a field; documents without one stay. -/
def randomMulti (field : String) (isInt : Bool) (salt : String) (deal : Regroup.Deal) :
    Call Nat :=
  dealByTerms (.xxh3 salt) field isInt deal none

/-- Deals out by the hashes of the values of a stat. -/
abbrev dealByStat (hash : SaltedHash) (stat : Nat) (deal : Regroup.Deal) : Call Nat :=
  regroup fun s feed => do
    let values ← orRefused (s.stats.get stat)
    Regroup.dealByValues feed hash values deal

def randomMetricMulti (stat : Nat) (salt : String) (deal : Regroup.Deal) : Call Nat :=
  dealByStat (.xxh3 salt) stat deal

/-- Deals out two ways by the values of a stat. -/
def randomMetric (stat : Nat) (salt : String) (p : Binary64) (split : Split) : Call Nat :=
  randomMetricMulti stat salt (.twoWay split p)

def metric (stat : Nat) (min max width : Int) (noGutters : Bool) : Call Nat :=
  regroup fun s feed => do
    let values ← orRefused (s.stats.get stat)
    let buckets ← orRefused (IntervalBuckets.make min max width noGutters)
    Regroup.byBuckets feed values buckets

/-- The range of one axis of a grid. -/
structure AxisRange where
  stat : Nat
  min : Int
  max : Int
  width : Int
  deriving DecidableEq, Repr

def metric2d (x y : AxisRange) : Call Nat :=
  regroup fun s feed => do
    let xs ← orRefused (s.stats.get x.stat)
    let ys ← orRefused (s.stats.get y.stat)
    let xAxis ← orRefused (Axis.make "x" x.min x.max x.width)
    let yAxis ← orRefused (Axis.make "y" y.min y.max y.width)
    Regroup.byGrid feed xs ys ⟨xAxis, yAxis⟩

def metricFilter (stat : Nat) (min max : Int) (negate : Bool) : Call Nat :=
  regroup fun s feed => do
    let values ← orRefused (s.stats.get stat)
    Regroup.byRange feed values min max negate

def remap (sources destinations : List Nat) (onlyRemapped : Bool) : Call Nat :=
  regroup fun _ feed => Regroup.byRemap feed sources destinations onlyRemapped

/-- Puts every document back into group 1. -/
def reset : Call Unit := do
  onGrouping (Pass.replace 1)
  modify ({ · with zeroCount := none })

/-! ### Groups -/

def numDocs (s : Session) : Nat := s.grouping.len

def numGroups (s : Session) : Nat := s.grouping.numGroups

def isFilteredOut (s : Session) : Bool := s.numGroups ≤ 1

def groupOf (doc : Nat) : Call Nat := do orBroken ((← get).grouping.get? doc)

/-- The groups of all documents, for a buffer of `entries` entries. -/
def exportGroups (entries : Nat) : Call (List Nat) := do
  let s ← get
  orRefused (require (entries = s.numDocs) (.exportLength s.numDocs entries))
  return s.grouping.toList

/-- Number of documents in group 0. -/
def zeroGroupDocs : Call Nat := do
  let s ← get
  match s.zeroCount with
  | some n => return n
  | none =>
    let n := s.grouping.countGroup 0
    modify ({ · with zeroCount := some n })
    return n

/-! ### Stats -/

def pushValues (name : String) (values : ValueTable) : Call Nat := do
  let stats ← onLedger ((← get).stats.push name values)
  modify ({ · with stats })
  return stats.depth

def metricNamed (s : Session) (name : String) : Except Error Counters :=
  match s.metrics.lookup name with
  | some c => .ok c
  | none => .error (.invalidArgument (.metricMissing name))

/-- How the name of a stat asks for a dynamic metric. -/
def dynamicMark : String := "dynamic "

/-- The name of the dynamic metric that a stat name asks for. -/
def dynamicName? (name : String) : Option String :=
  let mark := dynamicMark.toList
  if mark.isPrefixOf name.toList then some (.ofList (name.toList.drop mark.length)) else none

/-- Pushes what a name stands for: a dynamic metric as it is now, the count, a constant, or an
integer field. -/
def pushStat (name : String) : Call Nat := do
  let s ← get
  let values ← orRefused <|
    match dynamicName? name with
    | some metric => (s.metricNamed metric).map Counters.snapshot
    | none => Stat.resolve s.shard name
  pushValues name values

def popStat : Call Nat := do
  let stats ← onLedger (← get).stats.pop
  modify ({ · with stats })
  return stats.depth

def stat (index : Nat) : Call ValueTable := do orRefused ((← get).stats.get index)

/-- The sum of a stat over each group. -/
def groupStats (index : Nat) : Call (List Int) := do
  let values ← stat index
  withBuffers fun feed => do
    orBroken (sumByGroup? (← get).grouping feed.chunk values)

/-! ### Dynamic metrics -/

def createMetric (name : String) : Call Unit := do
  let s ← get
  orRefused (require (s.metrics.lookup name).isNone (.metricExists name))
  onLedger (Memory.claim (Counters.bytesFor s.numDocs))
  modify fun s => { s with metrics := s.metrics ++ [(name, .zero s.numDocs)] }

/-- Replaces the counters of a metric. -/
def setMetric (name : String) (c : Counters) : Call Unit :=
  modify fun s => { s with metrics := s.metrics.map fun m => if m.1 = name then (name, c) else m }

/-- Changes the counters of a metric, which must exist. -/
def updateMetric (name : String) (f : Feed → Counters → Call Counters) : Call Unit := do
  let c ← orRefused ((← get).metricNamed name)
  withBuffers fun feed => do
    setMetric name (← f feed c)

def addByGroup (name : String) (deltas : List Int) : Call Unit :=
  updateMetric name fun feed c => do
    orBroken (c.addByGroup? (← get).grouping feed.chunk deltas)

def addByTerm (name : String) (conditions : List Condition) (deltas : List Int) : Call Unit :=
  updateMetric name fun feed c => do
    orRefused (Counters.checkConditions conditions deltas.length)
    orBroken (c.addByTerm? feed conditions deltas)

def addByGroupAndTerm (name : String) (groups : List Nat) (conditions : List Condition)
    (deltas : List Int) : Call Unit :=
  updateMetric name fun feed c => do
    orRefused (Counters.checkGroups groups.length conditions deltas.length)
    let g := (← get).grouping
    let entries := Counters.liveEntries g.numGroups groups conditions deltas
    onGrouping <| Pass.scratch (g.numGroups * 8) fun _ =>
      orBroken (c.addByGroupAndTerm? feed g entries)

/-! ### Frequencies and memory -/

/-- Sum of the posting list lengths of the given fields. -/
def totalDocFreq (s : Session) (intFields stringFields : List String) : Nat :=
  intFields.foldr (s.shard.intDocFreq · + ·) 0 +
    stringFields.foldr (s.shard.stringDocFreq · + ·) 0

/-- Bytes that the session itself holds. -/
def heldBytes (s : Session) : Nat :=
  s.buffers.reserved + s.grouping.bytes + s.stats.bytes +
    s.metrics.foldr (·.2.bytes + ·) 0

/-- Gives back everything that the session holds, and leaves the ledger. -/
def close (s : Session) : Option Memory.Ledger := do
  let l ← (s.stats.stats.toList.map (·.values.bytes)).foldlM Memory.Ledger.release? s.ledger
  let l ← (s.metrics.map (·.2.bytes)).foldlM Memory.Ledger.release? l
  let l ← l.release? s.grouping.bytes
  l.release? s.buffers.reserved

end Session

end Cohort
