import Cohort.Decimal.Binary64
import Cohort.Memory.Ledger
import Cohort.Term
import Cohort.Text.Quoted

/-!
# Errors: why a call was refused

Each cause is a constructor, and its wording stands in one place: `argument` names the offending
argument, `detail` says what is wrong with it, and `Error.message` puts the whole text together.

`Failure` tells a refusal, after which the caller may go on, from a broken internal check, after
which nothing may run.
-/

namespace Cohort

/-- What is wrong with an argument. -/
inductive ArgumentError where
  /-- The buffer size is 0. -/
  | emptyBuffer
  | tooManyDocuments
  /-- The configuration text is not a configuration. -/
  | malformedConfig
  | columnLength (field : String) (entries documents : Nat)
  | conditionCount (rule conditions positives : Nat)
  | ruleTargetsZero (rule : Nat)
  | targetsZero
  | duplicateTarget (group : Nat)
  /-- An equality split sends one term to two groups. -/
  | ambiguousSplit (group : Nat) (field : String) (term : Term) (first second : Nat)
  | percentageCount (percentages groups : Nat)
  | percentageRange (percentage : Binary64) (position : Nat)
  | percentageOrder
  | remapLength (sources destinations : Nat)
  | remapsZero
  | intervalNotPositive (axis : String) (interval : Int)
  | emptyRange (axis : String) (min max : Int)
  | tooManyBuckets (argument : String)
  | gridTooLarge (cells : Nat)
  | compositionTooLarge (groups buckets : Nat)
  | statLimit (limit : Nat)
  | statIndex (index pushed : Nat)
  | unknownIntField (name : String)
  | metricMissing (name : String)
  | metricExists (name : String)
  | groupCount (groups conditions : Nat)
  | deltaCount (deltas conditions : Nat)
  /-- Only equality conditions can update a dynamic metric. -/
  | inequalityUpdate (field : String)
  | exportLength (expected actual : Nat)
  deriving DecidableEq, Repr

/-- Why a call does not fit the state of the session. -/
inductive StateError where
  | tooManyGroups (groups : Nat)
  /-- A document holds two terms of an equality split that must not collide. -/
  | splitCollision (document group : Nat)
  | emptyStatStack
  deriving DecidableEq, Repr

inductive Error where
  | outOfMemory (shortage : Memory.Shortage)
  | invalidArgument (cause : ArgumentError)
  | illegalState (cause : StateError)
  | invalidRegex (pattern : String)
  deriving DecidableEq, Repr

/-- A term inside a message. -/
def Term.quoted : Term → String
  | .int v => s!"Int({v})"
  | .str s => "Str(" ++ Text.Quoted.quote s ++ ")"

namespace ArgumentError

/-- The name of the offending argument. -/
def argument : ArgumentError → String
  | emptyBuffer => "buffer_size"
  | tooManyDocuments => "num_docs"
  | malformedConfig => "config"
  | columnLength field _ _ => field
  | conditionCount .. | ruleTargetsZero _ | targetsZero | duplicateTarget _ | ambiguousSplit .. =>
    "rules"
  | percentageCount .. | percentageRange .. | percentageOrder => "percentages"
  | remapLength .. => "to_groups"
  | remapsZero => "from_groups"
  | intervalNotPositive axis _ | emptyRange axis _ _ | tooManyBuckets axis => axis
  | gridTooLarge _ | compositionTooLarge .. => "buckets"
  | statLimit _ | statIndex .. | unknownIntField _ => "stat"
  | metricMissing _ | metricExists _ => "name"
  | groupCount .. => "groups"
  | deltaCount .. => "deltas"
  | inequalityUpdate _ => "conditions"
  | exportLength .. => "out"

/-- What is wrong, if there is more to say than the name of the argument. -/
def detail : ArgumentError → Option String
  | emptyBuffer => some "self.buffer_size > 0"
  | tooManyDocuments => some "num_docs <= u32::MAX as usize"
  | malformedConfig => none
  | columnLength _ entries documents =>
    some s!"column has {entries} entries, shard has {documents} documents"
  | conditionCount rule conditions positives =>
    some s!"rule {rule} has {conditions} conditions but {positives} positive groups"
  | ruleTargetsZero rule => some s!"rule {rule} targets group 0"
  | targetsZero => some "rule targets group 0"
  | duplicateTarget group => some s!"more than one rule targets group {group}"
  | ambiguousSplit group field term first second =>
    let text := term.quoted
    some s!"equality split of group {group} on '{field}' sends {text} to both {first} and {second}"
  | percentageCount percentages groups =>
    let needed := percentages + 1
    some s!"{percentages} percentages need {needed} result groups, got {groups}"
  | percentageRange percentage position =>
    let text := percentage.toText
    some s!"percentage {text} at {position} is outside [0, 1]"
  | percentageOrder => some "percentages must be in ascending order"
  | remapLength sources destinations =>
    some s!"{sources} source groups but {destinations} destinations"
  | remapsZero => some "group 0 cannot be remapped"
  | intervalNotPositive _ interval => some s!"interval must be positive, got {interval}"
  | emptyRange _ min max => some s!"max ({max}) must be greater than min ({min})"
  | tooManyBuckets _ => some "too many buckets"
  | gridTooLarge cells => some s!"a grid of {cells} cells exceeds the group id range"
  | compositionTooLarge groups buckets =>
    some s!"{groups} groups times {buckets} buckets exceeds the group id range"
  | statLimit limit => some s!"cannot push more than {limit} stats"
  | statIndex index pushed => some s!"index {index} out of range, {pushed} stats pushed"
  | unknownIntField name => some s!"unknown int field '{name}'"
  | metricMissing name => some s!"no dynamic metric '{name}'"
  | metricExists name => some s!"dynamic metric '{name}' already exists"
  | groupCount groups conditions => some s!"{groups} groups for {conditions} conditions"
  | deltaCount deltas conditions => some s!"{deltas} deltas for {conditions} conditions"
  | inequalityUpdate field => some s!"inequality condition on '{field}' cannot update a metric"
  | exportLength expected actual => some s!"expected {expected} entries, got {actual}"

end ArgumentError

namespace StateError

def detail : StateError → String
  | tooManyGroups groups => s!"regex regroup needs at most one group, session has {groups}"
  | splitCollision document group =>
    s!"document {document} in group {group} matches more than one term of an equality split"
  | emptyStatStack => "stat stack is empty"

end StateError

namespace Error

def message : Error → String
  | outOfMemory ⟨requested, remaining⟩ =>
    s!"not enough memory: failed to claim {requested} bytes ({remaining} bytes remaining)"
  | invalidArgument cause =>
    let argument := cause.argument
    match cause.detail with
    | some detail => s!"invalid argument {argument}: {detail}"
    | none => s!"invalid argument {argument}"
  | illegalState cause =>
    let detail := cause.detail
    s!"illegal state: {detail}"
  | invalidRegex pattern => s!"invalid regex '{pattern}'"

end Error

/-- Fails with `cause` unless `ok`. -/
def require (ok : Bool) (cause : ArgumentError) : Except Error Unit :=
  if ok then .ok () else .error (.invalidArgument cause)

/-- How a call ends early. -/
inductive Failure where
  | refused (error : Error)
  /-- An internal check failed: an index out of range, a number past its width. -/
  | broken
  deriving DecidableEq, Repr

/-- Goes on with the value of a check that must not fail. -/
def orBroken {σ α : Type} : Option α → EStateM Failure σ α
  | some a => pure a
  | none => throw .broken

/-- Ends the call with an error unless `result` is a value. -/
def orRefused {σ α : Type} : Except Error α → EStateM Failure σ α
  | .ok a => pure a
  | .error e => throw (.refused e)

end Cohort
