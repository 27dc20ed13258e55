import Cohort.Json.Value
import Cohort.Word

/-!
# Decoding JSON values

Decoding is strict: an integer is an integer literal within its range, a string is a string, and
`null` is nothing but itself. Only a double may be written as an integer.

A `Record` is a structure with named fields. It may be written as an object, where a field that is
known may appear only once and others are ignored, or as an array of its first fields in order.
-/

namespace Cohort

namespace Json

variable {α : Type}

def bool? : Json → Option Bool
  | bool b => some b
  | _ => none

def string? : Json → Option String
  | str s => some s
  | _ => none

/-- An integer from `lo` to `hi`. -/
def intIn? (lo hi : Int) : Json → Option Int
  | int v => if lo ≤ v && v ≤ hi then some v else none
  | _ => none

def int64? : Json → Option Int := intIn? (-0x8000_0000_0000_0000) 0x7fff_ffff_ffff_ffff

def int32? : Json → Option Int := intIn? (-0x8000_0000) 0x7fff_ffff

def uint64? (j : Json) : Option Nat := (j.intIn? 0 0xffff_ffff_ffff_ffff).map Int.toNat

def uint32? (j : Json) : Option Nat := (j.intIn? 0 maxId).map Int.toNat

def double? : Json → Option Binary64
  | int v => Binary64.ofDecimal? (v < 0) v.natAbs 0
  | real x => some x
  | _ => none

def list? (item? : Json → Option α) : Json → Option (List α)
  | arr items => items.mapM item?
  | _ => none

/-- The members of an object; of several with one name the last counts. -/
def map? (item? : Json → Option α) : Json → Option (List (String × α))
  | obj members => do
    let decoded ← members.mapM fun (name, j) => (item? j).map (name, ·)
    some (decoded.foldr (fun m kept => if kept.any (·.1 == m.1) then kept else m :: kept) [])
  | _ => none

/-- A structure as written: its fields by name or by position. -/
structure Record where
  fields : List (String × Json)

namespace Record

/-- Reads the fields `names` of a record; the members of an object that are not among them are
ignored. -/
def open? (names : List String) : Json → Option Record
  | obj members =>
    let known := members.filter (names.contains ·.1)
    if (known.map (·.1)).Nodup then some ⟨known⟩ else none
  | arr items => if items.length ≤ names.length then some ⟨names.zip items⟩ else none
  | _ => none

def get? (r : Record) (name : String) (item? : Json → Option α) : Option α :=
  r.fields.lookup name >>= item?

/-- A field that may be left out. -/
def getD? (r : Record) (name : String) (item? : Json → Option α) (default : α) : Option α :=
  match r.fields.lookup name with
  | some j => item? j
  | none => some default

end Record

end Json

end Cohort
