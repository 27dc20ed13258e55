import Cohort.Json.Codec
import Cohort.Script
import Cohort.Shard.Columns

/-!
# Reports: running a script and inspecting a shard from their texts

`run` applies a script to a shard and prints one line per step and a summary of the session;
`inspect` prints what the fields of a shard hold. Both work on texts that were read before, so that
a source that cannot be read is one of the failures. Nothing is printed unless every step succeeds.
What reads and writes JSON text is a codec; `run` and `inspect` use the standard one.
-/

namespace Cohort.Report

/-- A file by its path, with its text if it can be read. -/
structure Source where
  path : String
  text : Option String

/-- What lies behind a failed run. -/
inductive Cause where
  | unreadable
  | malformed
  | refused (error : Error)
  deriving DecidableEq, Repr

/-- How a run ends early: with a message about what was being done, or by a broken check. -/
inductive Stop where
  | failed (message : String) (cause : Cause)
  | broken
  deriving DecidableEq, Repr

/-- Explains a failure by what was being done. -/
def explain (message : String) : Failure → Stop
  | .refused e => .failed message (.refused e)
  | .broken => .broken

def readText (what : String) (s : Source) : Except Stop String :=
  match s.text with
  | some text => .ok text
  | none => .error (.failed ("Failed to read " ++ what ++ ": " ++ s.path) .unreadable)

section

variable (codec : Json.Codec)

def parseText {α : Type} (what : String) (s : Source) (decode? : Json → Option α) (text : String) :
    Except Stop α :=
  match codec.parse? text >>= decode? with
  | some a => .ok a
  | none => .error (.failed ("Failed to parse " ++ what ++ ": " ++ s.path) .malformed)

def readShard (s : Source) : Except Stop Shard := do
  let text ← readText "shard" s
  let document ← parseText codec "shard" s ShardColumns.ofJson? text
  document.toShard.mapError (explain ("Invalid shard: " ++ s.path))

/-- The defaults if no configuration is asked for. -/
def readConfig : Option Source → Except Stop Config
  | none => .ok {}
  | some s => do
    let text ← readText "config" s
    (Config.ofTextBy codec text).mapError fun e =>
      explain ("Invalid config: " ++ s.path) (.refused e)

def readScript (s : Source) : Except Stop Script := do
  let text ← readText "script" s
  parseText codec "script" s Script.ofJson? text

end

/-- A command that was applied and what it produced. -/
structure Step where
  position : Nat
  command : Command
  outcome : Outcome

namespace Step

def toJson (s : Step) : Json :=
  .obj [("step", .int s.position), ("op", .str s.command.name), s.outcome.member]

end Step

/-- Applies commands, counted from `position` on, until one fails. -/
def execute (position : Nat) (s : Session) : Script → Except Stop (List Step × Session)
  | [] => .ok ([], s)
  | command :: rest =>
    match command.apply s with
    | .error e _ =>
      let name := command.name
      .error (explain s!"Step {position} ({name}) failed" e)
    | .ok outcome s => do
      let (steps, s) ← execute (position + 1) s rest
      return (⟨position, command, outcome⟩ :: steps, s)

/-- What is left of a session at the end. -/
structure Summary where
  numDocs : Nat
  numGroups : Nat
  filteredDocs : Nat
  groupDocCounts : List Nat
  maxMemoryUsed : Nat
  deriving DecidableEq, Repr

namespace Summary

def ofSession : Call Summary := do
  let filtered ← Session.zeroGroupDocs
  let s ← get
  return ⟨s.numDocs, s.numGroups, filtered, s.grouping.groupDocCounts, s.ledger.own.peak⟩

def toJson (s : Summary) : Json :=
  .obj [("num_docs", .int s.numDocs), ("num_groups", .int s.numGroups),
    ("filtered_docs", .int s.filteredDocs),
    ("group_doc_counts", .arr (s.groupDocCounts.map fun n : Nat => Json.int n)),
    ("max_memory_used", .int s.maxMemoryUsed)]

end Summary

/-- Bytes that a run may use unless told otherwise. -/
def defaultMemory : Nat := 256 * 1024 * 1024

/-- Runs a script over a shard within `memory` bytes; gives the text to print. -/
def runBy (codec : Json.Codec) (shard script : Source) (config : Option Source) (memory : Nat) :
    Except Stop String := do
  let shard ← readShard codec shard
  let config ← readConfig codec config
  let script ← readScript codec script
  let session ← (Session.start shard (.fresh memory (some memory)) config).mapError
    (explain "Failed to create regroup session")
  let (steps, session) ← execute 0 session script
  match Summary.ofSession session with
  | .error e _ => .error (explain "Failed to summarize" e)
  | .ok summary _ =>
    let lines := steps.map fun s => codec.render s.toJson ++ "\n"
    return String.join lines ++ codec.pretty summary.toJson ++ "\n"

def run (shard script : Source) (config : Option Source) (memory : Nat) : Except Stop String :=
  runBy .standard shard script config memory

/-- What a field holds: its kind, the number of its terms, the length of all posting lists, and the
first and the last term. -/
def describeField {τ : Type} (kind : String) (value : τ → Json) (name : String) (p : Postings τ) :
    Json :=
  let terms := p.entries.map (·.1)
  let bounds :=
    match terms.head?, terms.getLast? with
    | some lo, some hi => [("min", value lo), ("max", value hi)]
    | _, _ => []
  .obj ([("name", .str name), ("type", .str kind), ("term_count", .int terms.length),
    ("postings", .int p.totalDocFreq)] ++ bounds)

/-- The fields of a shard, integer fields first. -/
def inspection (s : Shard) : Json :=
  let ints := s.ints.map fun (name, p) => describeField "int" .int name p
  let strings := s.strings.map fun (name, p) => describeField "string" .str name p
  .obj [("num_docs", .int s.numDocs), ("fields", .arr (ints ++ strings))]

/-- Describes a shard; gives the text to print. -/
def inspectBy (codec : Json.Codec) (shard : Source) : Except Stop String := do
  let s ← readShard codec shard
  return codec.pretty (inspection s) ++ "\n"

def inspect (shard : Source) : Except Stop String := inspectBy .standard shard

end Cohort.Report
