import Cohort.Error
import Cohort.Json.Decode
import Cohort.Shard.Basic

/-!
# Shard columns: a shard written out field by field

A column has one entry per document: nothing, one value, or a list of values. `toShard` checks the
length of every column, integer columns first, each kind by name, and records the values.
-/

namespace Cohort

inductive Entry (τ : Type) where
  | missing
  | one (value : τ)
  | many (values : List τ)
  deriving Repr

namespace Entry

variable {τ : Type}

def toList : Entry τ → List τ
  | missing => []
  | one v => [v]
  | many vs => vs

def ofJson? (value? : Json → Option τ) : Json → Option (Entry τ)
  | .null => some missing
  | .arr items => (items.mapM value?).map many
  | j => (value? j).map one

def toJson (value : τ → Json) : Entry τ → Json
  | missing => .null
  | one v => value v
  | many vs => .arr (vs.map value)

end Entry

/-- One entry per document. -/
abbrev Column (τ : Type) := List (Entry τ)

structure ShardColumns where
  numDocs : Nat
  ints : List (String × Column Int)
  strings : List (String × Column String)
  deriving Repr

namespace ShardColumns

/-- Columns in the order of their names. -/
def byName {τ : Type} (columns : List (String × Column τ)) : List (String × Column τ) :=
  columns.mergeSort fun a b => !decide (b.1 < a.1)

def columnsOfJson? {τ : Type} (value? : Json → Option τ) (j : Json) :
    Option (List (String × Column τ)) :=
  (j.map? (Json.list? (Entry.ofJson? value?))).map byName

def ofJson? (j : Json) : Option ShardColumns := do
  let r ← Json.Record.open? ["num_docs", "int_fields", "string_fields"] j
  let numDocs ← r.get? "num_docs" Json.uint64?
  let ints ← r.getD? "int_fields" (columnsOfJson? Json.int64?) []
  let strings ← r.getD? "string_fields" (columnsOfJson? Json.string?) []
  some ⟨numDocs, ints, strings⟩

def columnsToJson {τ : Type} (value : τ → Json) (columns : List (String × Column τ)) : Json :=
  .obj (columns.map fun (name, column) => (name, .arr (column.map (Entry.toJson value))))

def toJson (d : ShardColumns) : Json :=
  .obj [("num_docs", .int d.numDocs), ("int_fields", columnsToJson .int d.ints),
    ("string_fields", columnsToJson .str d.strings)]

/-- Records the values of a column, document by document. -/
def addColumn {τ : Type} (numDocs : Nat) (add? : Shard → Nat → τ → Option Shard) (s : Shard)
    (field : String) (column : Column τ) : Except Failure Shard :=
  if column.length = numDocs then
    match (column.zipIdx.flatMap fun (e, doc) => e.toList.map (doc, ·)).foldlM
        (fun s (doc, v) => add? s doc v) s with
    | some s => .ok s
    | none => .error .broken
  else .error (.refused (.invalidArgument (.columnLength field column.length numDocs)))

def toShard (d : ShardColumns) : Except Failure Shard :=
  match Shard.empty? d.numDocs with
  | none => .error .broken
  | some s => do
    let s ← d.ints.foldlM (fun s (field, column) =>
      addColumn d.numDocs (fun s => s.addInt? field) (s.withIntField field) field column) s
    d.strings.foldlM (fun s (field, column) =>
      addColumn d.numDocs (fun s => s.addString? field) (s.withStringField field) field column) s

end ShardColumns

end Cohort
