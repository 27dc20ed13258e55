import Cohort.Term

/-!
# Queries: which documents to pick

A query is a tree of term tests, value ranges and Boolean connectives. A range runs from `min` up
to `max`, which belongs to it only if it is inclusive.
-/

namespace Cohort

inductive Query where
  | term (field : String) (term : Term)
  | intRange (field : String) (min max : Int) (inclusive : Bool)
  | stringRange (field : String) (min max : String) (inclusive : Bool)
  /-- All of the parts: every document if there are none. -/
  | and (parts : List Query)
  /-- Some of the parts: no document if there are none. -/
  | or (parts : List Query)
  | not (part : Query)
  deriving Repr

end Cohort
