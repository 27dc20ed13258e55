import Cohort.Json.Decode
import Cohort.Rule.Basic

/-!
# The JSON form of terms, conditions, queries and rules

A term is a bare integer or string. A query is an object with one member, named for its kind.
-/

namespace Cohort

namespace Term

def ofJson? : Json → Option Term
  | .str s => some (str s)
  | j => j.int64?.map int

def toJson : Term → Json
  | int v => .int v
  | str s => .str s

end Term

namespace Condition

def ofJson? (j : Json) : Option Condition := do
  let r ← Json.Record.open? ["field", "term", "inequality"] j
  let field ← r.get? "field" Json.string?
  let term ← r.get? "term" Term.ofJson?
  let inequality ← r.getD? "inequality" Json.bool? false
  some ⟨field, term, inequality⟩

def toJson (c : Condition) : Json :=
  .obj [("field", .str c.field), ("term", c.term.toJson), ("inequality", .bool c.inequality)]

end Condition

namespace Query

/-- A range as written: field, lower end, upper end, and whether the upper end belongs to it. -/
def rangeOfJson? {α : Type} (value? : Json → Option α) (j : Json) :
    Option (String × α × α × Bool) := do
  let r ← Json.Record.open? ["field", "min", "max", "max_inclusive"] j
  let field ← r.get? "field" Json.string?
  let min ← r.get? "min" value?
  let max ← r.get? "max" value?
  let inclusive ← r.getD? "max_inclusive" Json.bool? false
  some (field, min, max, inclusive)

def ofJson? : Json → Option Query
  | .obj [("term", j)] => do
    let r ← Json.Record.open? ["field", "term"] j
    let field ← r.get? "field" Json.string?
    let t ← r.get? "term" Term.ofJson?
    some (term field t)
  | .obj [("int_range", j)] => do
    let (field, min, max, inclusive) ← rangeOfJson? Json.int64? j
    some (intRange field min max inclusive)
  | .obj [("string_range", j)] => do
    let (field, min, max, inclusive) ← rangeOfJson? Json.string? j
    some (stringRange field min max inclusive)
  | .obj [("and", .arr items)] =>
    ((items.attach.mapM fun j => ofJson? j.1) : Option (List Query)).map and
  | .obj [("or", .arr items)] =>
    ((items.attach.mapM fun j => ofJson? j.1) : Option (List Query)).map or
  | .obj [("not", j)] => (ofJson? j).map not
  | _ => none
termination_by j => sizeOf j
decreasing_by
  · have := List.sizeOf_lt_of_mem j.2
    simp only [Json.obj.sizeOf_spec, Json.arr.sizeOf_spec, List.cons.sizeOf_spec,
      Prod.mk.sizeOf_spec]
    omega
  · have := List.sizeOf_lt_of_mem j.2
    simp only [Json.obj.sizeOf_spec, Json.arr.sizeOf_spec, List.cons.sizeOf_spec,
      Prod.mk.sizeOf_spec]
    omega
  · simp only [Json.obj.sizeOf_spec, List.cons.sizeOf_spec, Prod.mk.sizeOf_spec]
    omega

def rangeToJson {α : Type} (value : α → Json) (field : String) (min max : α) (inclusive : Bool) :
    Json :=
  .obj [("field", .str field), ("min", value min), ("max", value max),
    ("max_inclusive", .bool inclusive)]

def toJson : Query → Json
  | term field t => .obj [("term", .obj [("field", .str field), ("term", t.toJson)])]
  | intRange field min max inclusive =>
    .obj [("int_range", rangeToJson .int field min max inclusive)]
  | stringRange field min max inclusive =>
    .obj [("string_range", rangeToJson .str field min max inclusive)]
  | and parts => .obj [("and", .arr (parts.attach.map fun ⟨q, _⟩ => q.toJson))]
  | or parts => .obj [("or", .arr (parts.attach.map fun ⟨q, _⟩ => q.toJson))]
  | not part => .obj [("not", part.toJson)]

end Query

namespace Rule

def ofJson? (j : Json) : Option Rule := do
  let r ← Json.Record.open? ["target_group", "condition", "negative_group", "positive_group"] j
  let target ← r.get? "target_group" Json.uint32?
  let condition ← r.get? "condition" Condition.ofJson?
  let negative ← r.get? "negative_group" Json.uint32?
  let positive ← r.get? "positive_group" Json.uint32?
  some ⟨target, condition, negative, positive⟩

def toJson (r : Rule) : Json :=
  .obj [("target_group", .int r.target), ("condition", r.condition.toJson),
    ("negative_group", .int r.negative), ("positive_group", .int r.positive)]

end Rule

namespace MultiRule

def ofJson? (j : Json) : Option MultiRule := do
  let r ← Json.Record.open? ["target_group", "negative_group", "positive_groups", "conditions"] j
  let target ← r.get? "target_group" Json.uint32?
  let negative ← r.get? "negative_group" Json.uint32?
  let positives ← r.get? "positive_groups" (Json.list? Json.uint32?)
  let conditions ← r.get? "conditions" (Json.list? Condition.ofJson?)
  some ⟨target, negative, positives, conditions⟩

def toJson (r : MultiRule) : Json :=
  .obj [("target_group", .int r.target), ("negative_group", .int r.negative),
    ("positive_groups", .arr (r.positives.map fun g : Nat => Json.int g)),
    ("conditions", .arr (r.conditions.map Condition.toJson))]

end MultiRule

namespace QueryRule

def ofJson? (j : Json) : Option QueryRule := do
  let r ← Json.Record.open? ["target_group", "query", "negative_group", "positive_group"] j
  let target ← r.get? "target_group" Json.uint32?
  let query ← r.get? "query" Query.ofJson?
  let negative ← r.get? "negative_group" Json.uint32?
  let positive ← r.get? "positive_group" Json.uint32?
  some ⟨target, query, negative, positive⟩

def toJson (r : QueryRule) : Json :=
  .obj [("target_group", .int r.target), ("query", r.query.toJson),
    ("negative_group", .int r.negative), ("positive_group", .int r.positive)]

end QueryRule

end Cohort
