import Cohort.Query.Basic
import Cohort.Rule.Condition

/-!
# Rules: where the documents of a group go

· A `Rule` has one condition and two outcomes.
· A `MultiRule` takes the outcome of the first of its conditions that holds.
· A `QueryRule` asks a query instead of a condition.

A `Split` is the common part: the documents of `target` go to `positive` or to `negative`.
-/

namespace Cohort

structure Split where
  target : Nat
  negative : Nat
  positive : Nat
  deriving DecidableEq, Repr

structure Rule where
  target : Nat
  condition : Condition
  negative : Nat
  positive : Nat
  deriving DecidableEq, Repr

structure MultiRule where
  target : Nat
  negative : Nat
  positives : List Nat
  conditions : List Condition
  deriving DecidableEq, Repr

structure QueryRule where
  target : Nat
  query : Query
  negative : Nat
  positive : Nat
  deriving Repr

namespace Split

def maxGroup (s : Split) : Nat := max s.negative s.positive

end Split

namespace Rule

def maxGroup (r : Rule) : Nat := max r.negative r.positive

/-- The same rule with a list of one condition. -/
def toMulti (r : Rule) : MultiRule := ⟨r.target, r.negative, [r.positive], [r.condition]⟩

end Rule

namespace MultiRule

/-- Largest group the rule can send a document to. -/
def maxGroup (r : MultiRule) : Nat := r.positives.foldl max r.negative

/-- Whether every outcome of the rule is its own target. -/
def isIdentity (r : MultiRule) : Bool :=
  r.negative == r.target && r.positives.all (· == r.target)

end MultiRule

namespace QueryRule

def split (r : QueryRule) : Split := ⟨r.target, r.negative, r.positive⟩

end QueryRule

end Cohort
