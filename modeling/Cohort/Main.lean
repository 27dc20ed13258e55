import Cohort.Report

/-!
# Command line

`run SHARD SCRIPT [--config CONFIG] [--memory BYTES]` and `inspect SHARD`.
-/

namespace Cohort.CommandLine

def source (path : String) : IO Report.Source := do
  let text ← (some <$> IO.FS.readFile path).catchExceptions fun _ => pure none
  return ⟨path, text⟩

def describe : Report.Stop → String
  | .failed message .unreadable => message
  | .failed message .malformed => message
  | .failed message (.refused e) => message ++ ": " ++ e.message
  | .broken => "internal check failed"

def finish (result : Except Report.Stop String) : IO UInt32 := do
  match result with
  | .ok text =>
    IO.print text
    return 0
  | .error stop =>
    IO.eprintln (describe stop)
    return 1

/-- Options after the two file names. -/
def options : List String → Option (Option String × Nat)
  | [] => some (none, Report.defaultMemory)
  | "--config" :: path :: rest => (options rest).map fun (_, memory) => (some path, memory)
  | "--memory" :: bytes :: rest => do
    let bytes ← bytes.toNat?
    (options rest).map fun (config, _) => (config, bytes)
  | _ => none

def dispatch (arguments : List String) : IO UInt32 := do
  match arguments with
  | ["inspect", shard] => finish (Report.inspect (← source shard))
  | "run" :: shard :: script :: rest =>
    match options rest with
    | none =>
      IO.eprintln "unknown option"
      return 2
    | some (config, memory) =>
      let shard ← source shard
      let script ← source script
      let config ← config.mapM source
      finish (Report.run shard script config memory)
  | _ =>
    IO.eprintln "usage: run SHARD SCRIPT [--config CONFIG] [--memory BYTES] | inspect SHARD"
    return 2

end Cohort.CommandLine

def main (arguments : List String) : IO UInt32 := Cohort.CommandLine.dispatch arguments
