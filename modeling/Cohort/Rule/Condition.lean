import Cohort.Term

/-!
# Conditions: tests on one field

A condition asks for a value equal to its term, or at most its term when it is an inequality. It
only looks at the field of its term's type.
-/

namespace Cohort

structure Condition where
  field : String
  term : Term
  inequality : Bool
  deriving DecidableEq, Repr

namespace Condition

def isInt (c : Condition) : Bool := c.term.isInt

/-- Whether a document that holds `value` in the integer field passes. -/
def matchesInt (c : Condition) (value : Int) : Bool :=
  match c.term with
  | .int term => if c.inequality then value ≤ term else value == term
  | .str _ => false

/-- Whether a document that holds `value` in the string field passes. -/
def matchesString (c : Condition) (value : String) : Bool :=
  match c.term with
  | .str term => if c.inequality then !decide (term < value) else value == term
  | .int _ => false

end Condition

end Cohort
