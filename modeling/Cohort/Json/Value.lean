import Cohort.Decimal.Binary64

/-!
# JSON values

A number is an integer exactly when its text has neither a fraction nor an exponent, is not `-0`,
and fits 64 bits; every other number is a double. An object keeps its members in the order of the
text, repeated names included.

A text may be well formed and yet write something that no value can hold; `unfit` stands for it.
Such a part does no harm where nobody asks for it.
-/

namespace Cohort

inductive Json where
  | null
  | bool (value : Bool)
  | int (value : Int)
  | real (value : Binary64)
  | str (value : String)
  | arr (items : List Json)
  | obj (members : List (String × Json))
  /-- What cannot be held: a number past all doubles, a string with half of a surrogate pair, or a
  value that is nested too deeply. -/
  | unfit

namespace Json

mutual

/-- Whether every part can be held. -/
def isFit : Json → Bool
  | arr items => allFit items
  | obj members => allMembersFit members
  | unfit => false
  | _ => true

def allFit : List Json → Bool
  | [] => true
  | j :: js => j.isFit && allFit js

def allMembersFit : List (String × Json) → Bool
  | [] => true
  | (_, j) :: members => j.isFit && allMembersFit members

end

/-- Keeps the last of several members with one name, at every level. -/
def lastWins : Json → Json
  | arr items => arr (items.attach.map fun ⟨j, _⟩ => j.lastWins)
  | obj members =>
    let members := members.attach.map fun ⟨(name, j), _⟩ => (name, j.lastWins)
    obj (members.foldr (fun m kept => if kept.any (·.1 == m.1) then kept else m :: kept) [])
  | j => j
termination_by j => sizeOf j
decreasing_by
  · have := List.sizeOf_lt_of_mem ‹_›
    simp only [arr.sizeOf_spec]
    omega
  · have := List.sizeOf_lt_of_mem ‹_›
    simp only [obj.sizeOf_spec]
    simp only [Prod.mk.sizeOf_spec] at this
    omega

/-- The member `name` of an object. -/
def member? : Json → String → Option Json
  | obj members, name => members.lookup name
  | _, _ => none

end Json

end Cohort
