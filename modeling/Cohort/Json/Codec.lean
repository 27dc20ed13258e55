import Cohort.Json.Reader
import Cohort.Json.Writer

/-!
# JSON codecs: what reads and writes documents

Reports need little of JSON text: a text is read as a document or not at all, and a document is
written on one line or over several. `standard` is the codec that runs; what is said about reports
is said of any codec.
-/

namespace Cohort.Json

structure Codec where
  /-- `none` if the text is not a document. -/
  parse? : String → Option Json
  /-- On one line. -/
  render : Json → String
  /-- Over several lines. -/
  pretty : Json → String

/-- Reads a number that is not an integer as the double nearest to it. -/
def Codec.standard : Codec := ⟨Json.parse?, Json.render, Json.pretty⟩

end Cohort.Json
