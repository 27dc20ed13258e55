import Cohort.Term

/-!
# Value tables: one integer per document

A table is either written out or the same value everywhere. `low` and `high` bound the values of
all documents; an empty table is bounded by 0 and 0.
-/

namespace Cohort

inductive ValueTable where
  | dense (values : Array Int)
  | constant (value : Int)
  deriving DecidableEq, Repr

namespace ValueTable

def low : ValueTable → Int
  | dense values => (values.toList.min?).getD 0
  | constant v => v

def high : ValueTable → Int
  | dense values => (values.toList.max?).getD 0
  | constant v => v

/-- The value of `doc`, or `none` past the end of a table that is written out. -/
def value? : ValueTable → Nat → Option Int
  | dense values, doc => values[doc]?
  | constant v, _ => some v

/-- The values of `docs`, in their order. -/
def valuesOf? (t : ValueTable) (docs : List Nat) : Option (List Int) :=
  docs.mapM t.value?

/-- Bytes that the table keeps alive. -/
def bytes : ValueTable → Nat
  | dense values => values.size * 8
  | constant _ => 0

end ValueTable

end Cohort
