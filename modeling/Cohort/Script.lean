import Cohort.Json.Reader
import Cohort.Rule.Json
import Cohort.Session.Basic

/-!
# Scripts: session calls written down

A command is an object whose member `op` names it and whose other members are its arguments, or an
array of the name and the arguments in order. Arguments that are not known are ignored, but no part
of a command may be unfit.
-/

namespace Cohort

inductive Command where
  | regroupMulti (rules : List MultiRule) (errorOnCollisions : Bool)
  | regroupRules (rules : List Rule)
  | intOr (field : String) (terms : List Int) (split : Split)
  | stringOr (field : String) (terms : List String) (split : Split)
  | regex (field pattern : String) (split : Split)
  | query (rule : QueryRule)
  | random (field : String) (isInt : Bool) (salt : String) (p : Binary64) (split : Split)
  | randomMulti (field : String) (isInt : Bool) (salt : String) (deal : Regroup.Deal)
  | randomMetric (stat : Nat) (salt : String) (p : Binary64) (split : Split)
  | randomMetricMulti (stat : Nat) (salt : String) (deal : Regroup.Deal)
  | metric (stat : Nat) (min max interval : Int) (noGutters : Bool)
  | metric2d (x y : Session.AxisRange)
  | metricFilter (stat : Nat) (min max : Int) (negate : Bool)
  | remap (sources destinations : List Nat) (onlyRemapped : Bool)
  | pushStat (name : String)
  | popStat
  | groupStats (stat : Nat)
  | createDynamic (name : String)
  | updateDynamic (name : String) (deltas : List Int)
  | conditionalUpdateDynamic (name : String) (conditions : List Condition) (deltas : List Int)
  | groupConditionalUpdateDynamic (name : String) (groups : List Nat)
      (conditions : List Condition) (deltas : List Int)
  | totalDocFreq (intFields stringFields : List String)
  | reset
  deriving Repr

/-- What a command produced. -/
inductive Outcome where
  | groups (count : Nat)
  | statDepth (depth : Nat)
  | sums (values : List Int)
  | docFreq (count : Nat)
  | metric (name : String)
  deriving DecidableEq, Repr

namespace Outcome

/-- The one member that reports an outcome. -/
def member : Outcome → String × Json
  | groups n => ("groups", .int n)
  | statDepth n => ("stat_depth", .int n)
  | sums vs => ("sums", .arr (vs.map .int))
  | docFreq n => ("doc_freq", .int n)
  | metric name => ("metric", .str name)

end Outcome

namespace Command

def name : Command → String
  | regroupMulti .. => "regroup_multi"
  | regroupRules _ => "regroup_rules"
  | intOr .. => "int_or"
  | stringOr .. => "string_or"
  | regex .. => "regex"
  | query _ => "query"
  | random .. => "random"
  | randomMulti .. => "random_multi"
  | randomMetric .. => "random_metric"
  | randomMetricMulti .. => "random_metric_multi"
  | metric .. => "metric"
  | metric2d .. => "metric2d"
  | metricFilter .. => "metric_filter"
  | remap .. => "remap"
  | pushStat _ => "push_stat"
  | popStat => "pop_stat"
  | groupStats _ => "group_stats"
  | createDynamic _ => "create_dynamic"
  | updateDynamic .. => "update_dynamic"
  | conditionalUpdateDynamic .. => "conditional_update_dynamic"
  | groupConditionalUpdateDynamic .. => "group_conditional_update_dynamic"
  | totalDocFreq .. => "total_doc_freq"
  | reset => "reset"

open Json (Record)

/-- The target and the two destinations. -/
def splitOf? (r : Record) : Option Split := do
  let target ← r.get? "target" Json.uint32?
  let negative ← r.get? "negative" Json.uint32?
  let positive ← r.get? "positive" Json.uint32?
  some ⟨target, negative, positive⟩

/-- The target, the fractions and the groups they lead to. -/
def dealOf? (r : Record) : Option Regroup.Deal := do
  let target ← r.get? "target" Json.uint32?
  let percentages ← r.get? "percentages" (Json.list? Json.double?)
  let results ← r.get? "result_groups" (Json.list? Json.uint32?)
  some ⟨target, percentages, results⟩

/-- One axis of a grid; its arguments start with the name of the axis. -/
def axisOf? (r : Record) (axis : String) : Option Session.AxisRange := do
  let stat ← r.get? (axis ++ "_stat") Json.uint64?
  let min ← r.get? (axis ++ "_min") Json.int64?
  let max ← r.get? (axis ++ "_max") Json.int64?
  let width ← r.get? (axis ++ "_interval") Json.int64?
  some ⟨stat, min, max, width⟩

/-- Decodes the arguments of the command `op`. -/
def ofArguments? (op : String) (arguments : Json) : Option Command :=
  let record names := Record.open? names arguments
  match op with
  | "regroup_multi" => do
    let r ← record ["rules", "error_on_collisions"]
    let rules ← r.get? "rules" (Json.list? MultiRule.ofJson?)
    some (regroupMulti rules (← r.getD? "error_on_collisions" Json.bool? false))
  | "regroup_rules" => do
    let r ← record ["rules"]
    some (regroupRules (← r.get? "rules" (Json.list? Rule.ofJson?)))
  | "int_or" => do
    let r ← record ["field", "terms", "target", "negative", "positive"]
    let field ← r.get? "field" Json.string?
    let terms ← r.get? "terms" (Json.list? Json.int64?)
    some (intOr field terms (← splitOf? r))
  | "string_or" => do
    let r ← record ["field", "terms", "target", "negative", "positive"]
    let field ← r.get? "field" Json.string?
    let terms ← r.get? "terms" (Json.list? Json.string?)
    some (stringOr field terms (← splitOf? r))
  | "regex" => do
    let r ← record ["field", "pattern", "target", "negative", "positive"]
    let field ← r.get? "field" Json.string?
    let pattern ← r.get? "pattern" Json.string?
    some (regex field pattern (← splitOf? r))
  | "query" => (QueryRule.ofJson? arguments).map query
  | "random" => do
    let r ← record ["field", "is_int", "salt", "p", "target", "negative", "positive"]
    let field ← r.get? "field" Json.string?
    let isInt ← r.getD? "is_int" Json.bool? false
    let salt ← r.get? "salt" Json.string?
    let p ← r.get? "p" Json.double?
    some (random field isInt salt p (← splitOf? r))
  | "random_multi" => do
    let r ← record ["field", "is_int", "salt", "target", "percentages", "result_groups"]
    let field ← r.get? "field" Json.string?
    let isInt ← r.getD? "is_int" Json.bool? false
    let salt ← r.get? "salt" Json.string?
    some (randomMulti field isInt salt (← dealOf? r))
  | "random_metric" => do
    let r ← record ["stat", "salt", "p", "target", "negative", "positive"]
    let stat ← r.get? "stat" Json.uint64?
    let salt ← r.get? "salt" Json.string?
    let p ← r.get? "p" Json.double?
    some (randomMetric stat salt p (← splitOf? r))
  | "random_metric_multi" => do
    let r ← record ["stat", "salt", "target", "percentages", "result_groups"]
    let stat ← r.get? "stat" Json.uint64?
    let salt ← r.get? "salt" Json.string?
    some (randomMetricMulti stat salt (← dealOf? r))
  | "metric" => do
    let r ← record ["stat", "min", "max", "interval", "no_gutters"]
    let stat ← r.get? "stat" Json.uint64?
    let min ← r.get? "min" Json.int64?
    let max ← r.get? "max" Json.int64?
    let interval ← r.get? "interval" Json.int64?
    some (metric stat min max interval (← r.getD? "no_gutters" Json.bool? false))
  | "metric2d" => do
    let r ← record ["x_stat", "x_min", "x_max", "x_interval", "y_stat", "y_min", "y_max",
      "y_interval"]
    some (metric2d (← axisOf? r "x") (← axisOf? r "y"))
  | "metric_filter" => do
    let r ← record ["stat", "min", "max", "negate"]
    let stat ← r.get? "stat" Json.uint64?
    let min ← r.get? "min" Json.int64?
    let max ← r.get? "max" Json.int64?
    some (metricFilter stat min max (← r.getD? "negate" Json.bool? false))
  | "remap" => do
    let r ← record ["from", "to", "filter_out_not_targeted"]
    let sources ← r.get? "from" (Json.list? Json.uint32?)
    let destinations ← r.get? "to" (Json.list? Json.uint32?)
    some (remap sources destinations (← r.getD? "filter_out_not_targeted" Json.bool? false))
  | "push_stat" => do
    let r ← record ["name"]
    some (pushStat (← r.get? "name" Json.string?))
  | "pop_stat" => (noArguments? arguments).map fun _ => popStat
  | "group_stats" => do
    let r ← record ["stat"]
    some (groupStats (← r.get? "stat" Json.uint64?))
  | "create_dynamic" => do
    let r ← record ["name"]
    some (createDynamic (← r.get? "name" Json.string?))
  | "update_dynamic" => do
    let r ← record ["name", "deltas"]
    let name ← r.get? "name" Json.string?
    some (updateDynamic name (← r.get? "deltas" (Json.list? Json.int32?)))
  | "conditional_update_dynamic" => do
    let r ← record ["name", "conditions", "deltas"]
    let name ← r.get? "name" Json.string?
    let conditions ← r.get? "conditions" (Json.list? Condition.ofJson?)
    some (conditionalUpdateDynamic name conditions (← r.get? "deltas" (Json.list? Json.int32?)))
  | "group_conditional_update_dynamic" => do
    let r ← record ["name", "groups", "conditions", "deltas"]
    let name ← r.get? "name" Json.string?
    let groups ← r.get? "groups" (Json.list? Json.uint32?)
    let conditions ← r.get? "conditions" (Json.list? Condition.ofJson?)
    let deltas ← r.get? "deltas" (Json.list? Json.int32?)
    some (groupConditionalUpdateDynamic name groups conditions deltas)
  | "total_doc_freq" => do
    let r ← record ["int_fields", "string_fields"]
    let ints ← r.getD? "int_fields" (Json.list? Json.string?) []
    some (totalDocFreq ints (← r.getD? "string_fields" (Json.list? Json.string?) []))
  | "reset" => (noArguments? arguments).map fun _ => reset
  | _ => none
where
  /-- A command without arguments ignores members, but takes no items. -/
  noArguments? : Json → Option Unit
    | .obj _ => some ()
    | .arr [] => some ()
    | _ => none

def ofJson? (j : Json) : Option Command :=
  if j.isFit then
    match j with
    | .obj members =>
      match members.filter (·.1 == "op") with
      | [(_, .str op)] => ofArguments? op (.obj (members.filter (·.1 != "op")))
      | _ => none
    | .arr (.str op :: arguments) => ofArguments? op (.arr arguments)
    | _ => none
  else none

/-- Applies a command to a session. -/
def apply : Command → Call Outcome
  | regroupMulti rules errorOnCollisions =>
    .groups <$> Session.regroupMulti rules errorOnCollisions
  | regroupRules rules => .groups <$> Session.regroupRules rules
  | intOr field terms split => .groups <$> Session.intOr field terms split
  | stringOr field terms split => .groups <$> Session.stringOr field terms split
  | regex field pattern split => .groups <$> Session.regex field pattern split
  | query rule => .groups <$> Session.regroupQuery rule
  | random field isInt salt p split => .groups <$> Session.random field isInt salt p split
  | randomMulti field isInt salt deal => .groups <$> Session.randomMulti field isInt salt deal
  | randomMetric stat salt p split => .groups <$> Session.randomMetric stat salt p split
  | randomMetricMulti stat salt deal => .groups <$> Session.randomMetricMulti stat salt deal
  | metric stat min max interval noGutters =>
    .groups <$> Session.metric stat min max interval noGutters
  | metric2d x y => .groups <$> Session.metric2d x y
  | metricFilter stat min max negate => .groups <$> Session.metricFilter stat min max negate
  | remap sources destinations onlyRemapped =>
    .groups <$> Session.remap sources destinations onlyRemapped
  | pushStat name => .statDepth <$> Session.pushStat name
  | popStat => .statDepth <$> Session.popStat
  | groupStats stat => .sums <$> Session.groupStats stat
  | createDynamic name => do
    Session.createMetric name
    return .metric name
  | updateDynamic name deltas => do
    Session.addByGroup name deltas
    return .metric name
  | conditionalUpdateDynamic name conditions deltas => do
    Session.addByTerm name conditions deltas
    return .metric name
  | groupConditionalUpdateDynamic name groups conditions deltas => do
    Session.addByGroupAndTerm name groups conditions deltas
    return .metric name
  | totalDocFreq intFields stringFields => do
    return .docFreq ((← get).totalDocFreq intFields stringFields)
  | reset => do
    Session.reset
    return .groups (← get).numGroups

end Command

/-- Commands in order. -/
abbrev Script := List Command

namespace Script

def ofJson? : Json → Option Script := Json.list? Command.ofJson?

end Script

end Cohort
