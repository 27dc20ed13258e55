import Cohort.Error
import Cohort.Rule.Basic

/-!
# Checks on rule lists

Nothing here looks at documents: these are the conditions that a rule list must meet before it is
applied, and the bounds that the passes are sized by.

· `checkTargets` and `checkSplits` check lists of multi-condition rules.
· `live` checks single-condition rules and keeps those whose group exists; `forGroup?` finds the
  rule of a group.
· `isIdentityList` recognises rule lists that leave every document where it is.
-/

namespace Cohort

namespace MultiRule

/-- Checks rules from position `i` on, given the targets seen before. -/
def checkTargetsFrom (i : Nat) (seen : List Nat) : List MultiRule → Except Error Unit
  | [] => .ok ()
  | r :: rules => do
    require (r.conditions.length = r.positives.length)
      (.conditionCount i r.conditions.length r.positives.length)
    require (r.target ≠ 0) (.ruleTargetsZero i)
    require (!seen.contains r.target) (.duplicateTarget r.target)
    checkTargetsFrom (i + 1) (r.target :: seen) rules

/-- The highest target of any rule. -/
def highestTarget (rules : List MultiRule) : Nat := (rules.map (·.target)).foldl max 0

/-- Every rule needs a positive group per condition and a target of its own other than 0. Returns
the highest target. -/
def checkTargets (rules : List MultiRule) : Except Error Nat := do
  checkTargetsFrom 0 [] rules
  return highestTarget rules

/-- The field of an equality split: a rule whose conditions, of which there are some, are all
equality tests on one field of one type. -/
def splitField? (r : MultiRule) : Option String :=
  match r.conditions with
  | [] => none
  | first :: rest =>
    if (first :: rest).all fun c =>
        !c.inequality && c.field == first.field && c.isInt == first.isInt
    then some first.field
    else none

/-- Checks that equal terms have equal destinations, given those seen before. -/
def checkDestinations (r : MultiRule) (field : String) (seen : List (Term × Nat)) :
    List (Condition × Nat) → Except Error Unit
  | [] => .ok ()
  | (c, positive) :: rest =>
    match seen.lookup c.term with
    | some previous => do
      require (previous = positive) (.ambiguousSplit r.target field c.term previous positive)
      checkDestinations r field seen rest
    | none => checkDestinations r field ((c.term, positive) :: seen) rest

/-- An equality split must not send one term to two groups. -/
def checkSplit (r : MultiRule) : Except Error Unit :=
  match r.splitField? with
  | none => .ok ()
  | some field => r.checkDestinations field [] (r.conditions.zip r.positives)

def checkSplits (rules : List MultiRule) : Except Error Unit :=
  rules.forM checkSplit

/-- Largest group that any rule can produce. -/
def maxGroupOf (rules : List MultiRule) : Nat := (rules.map maxGroup).foldl max 0

/-- Number of conditions of all rules; they are numbered from 1 on. -/
def numConditions (rules : List MultiRule) : Nat := rules.foldr (·.conditions.length + ·) 0

/-- The number of conditions that the passes are sized by: that of each rule is cut to 32 bits. -/
def conditionCountOf (rules : List MultiRule) : Nat :=
  rules.foldr (·.conditions.length % halfWordBound + ·) 0

/-- Whether the rules, whose targets differ, keep every document of `numGroups` groups where it
is. -/
def isIdentityList (rules : List MultiRule) (numGroups : Nat) : Bool :=
  let live := rules.filter (·.target < numGroups)
  live.all isIdentity && live.length + 1 == numGroups

/-- Bytes of bookkeeping that applying the rules takes. -/
def workBytes (rules : List MultiRule) (highestTarget numGroups : Nat) : Nat :=
  let conditions := conditionCountOf rules
  let parallel := 3 * 4 * conditions + 8 * conditions
  let inequality := (highestTarget + 1) * (4 + 8 + 8) + conditions * (4 + 8)
  let barriers := conditions * 4
  let remap := (max highestTarget numGroups + 1) * 4
  let ruleIndex := max (highestTarget + 1) numGroups * 8
  parallel + inequality + barriers + remap + ruleIndex

end MultiRule

namespace Rule

/-- Checks rules, given the targets seen before. -/
def checkTargets (seen : List Nat) : List Rule → Except Error Unit
  | [] => .ok ()
  | r :: rules => do
    require (r.target ≠ 0) .targetsZero
    require (!seen.contains r.target) (.duplicateTarget r.target)
    checkTargets (r.target :: seen) rules

/-- The rules whose target exists among `numGroups` groups. Every rule needs a target of its own
other than 0, whether or not it exists. -/
def live (rules : List Rule) (numGroups : Nat) : Except Error (List Rule) := do
  checkTargets [] rules
  return rules.filter (·.target < numGroups)

/-- The rule that targets `group`. -/
def forGroup? (rules : List Rule) (group : Nat) : Option Rule :=
  rules.find? (·.target == group)

end Rule

end Cohort
