import Cohort.Error
import Cohort.Json.Codec
import Cohort.Json.Decode

/-!
# Configuration of a session

Every setting has a default; a name that is not a setting is refused.
-/

namespace Cohort

structure Config where
  /-- Documents that a scratch buffer holds. -/
  bufferSize : Nat := 2048
  /-- Greatest depth of the stat stack. -/
  maxStats : Nat := 64
  logTiming : Bool := false
  /-- Scratch buffer sets kept between calls. -/
  pooledBuffers : Nat := 8
  deriving DecidableEq, Repr

namespace Config

def settings : List String := ["buffer_size", "max_stats", "log_timing", "pooled_buffers"]

/-- Whether all members of an object are settings. -/
def onlySettings : Json → Bool
  | .obj members => members.all (settings.contains ·.1)
  | _ => true

def ofJson? (j : Json) : Option Config := do
  let r ← if onlySettings j then Json.Record.open? settings j else none
  let default : Config := {}
  let bufferSize ← r.getD? "buffer_size" Json.uint64? default.bufferSize
  let maxStats ← r.getD? "max_stats" Json.uint64? default.maxStats
  let logTiming ← r.getD? "log_timing" Json.bool? default.logTiming
  let pooledBuffers ← r.getD? "pooled_buffers" Json.uint64? default.pooledBuffers
  some ⟨bufferSize, maxStats, logTiming, pooledBuffers⟩

def toJson (c : Config) : Json :=
  .obj [("buffer_size", .int c.bufferSize), ("max_stats", .int c.maxStats),
    ("log_timing", .bool c.logTiming), ("pooled_buffers", .int c.pooledBuffers)]

/-- A buffer must hold at least one document. -/
def validate (c : Config) : Except Error Unit :=
  if 0 < c.bufferSize then .ok () else .error (.invalidArgument .emptyBuffer)

/-- Reads and validates a configuration text. -/
def ofTextBy (codec : Json.Codec) (text : String) : Except Error Config :=
  match codec.parse? text >>= ofJson? with
  | none => .error (.invalidArgument .malformedConfig)
  | some c => c.validate.map fun _ => c

def ofText (text : String) : Except Error Config := ofTextBy .standard text

end Config

end Cohort
