import Cohort.Grouping.Basic
import Cohort.Memory.Charge
import Cohort.Shard.Basic
import Cohort.Text.Digits
import Cohort.Word

/-!
# The stat stack: value tables under a name

Tables are pushed and popped at the end and named by their position. The bytes of a table are
charged while it is on the stack.
-/

namespace Cohort

structure Stat where
  name : String
  values : ValueTable
  deriving DecidableEq, Repr

namespace Stat

/-- The value 1 for every document. -/
def countName : String := "count()"

/-- An integer of 64 bits: digits after at most one sign. -/
def integer? (text : String) : Option Int := do
  let (negative, digits) :=
    match text.toList with
    | '-' :: rest => (true, rest)
    | '+' :: rest => (false, rest)
    | cs => (false, cs)
  let n ← Text.number? Text.decimalDigit? 10 digits
  let v : Int := if negative then -n else n
  if isInt64 v then some v else none

/-- The table that a name stands for: the count, a constant, or an integer field. -/
def resolve (shard : Shard) (name : String) : Except Error ValueTable :=
  if name = countName then .ok (.constant 1)
  else
    match integer? name with
    | some v => .ok (.constant v)
    | none =>
      match shard.valueTable? name with
      | some t => .ok t
      | none => .error (.invalidArgument (.unknownIntField name))

end Stat

structure StatStack where
  stats : Array Stat
  maxStats : Nat
  deriving DecidableEq, Repr

namespace StatStack

def empty (maxStats : Nat) : StatStack := ⟨#[], maxStats⟩

def depth (s : StatStack) : Nat := s.stats.size

/-- Bytes of all tables on the stack. -/
def bytes (s : StatStack) : Nat := s.stats.toList.foldr (·.values.bytes + ·) 0

def names (s : StatStack) : List String := s.stats.toList.map (·.name)

/-- Checks the depth first and then claims the bytes. -/
def push (s : StatStack) (name : String) (values : ValueTable) : Memory.Charge StatStack := do
  orRefused (require (s.depth < s.maxStats) (.statLimit s.maxStats))
  Memory.claim values.bytes
  return { s with stats := s.stats.push ⟨name, values⟩ }

def pop (s : StatStack) : Memory.Charge StatStack := do
  match s.stats.back? with
  | none => throw (.refused (.illegalState .emptyStatStack))
  | some stat =>
    Memory.release stat.values.bytes
    return { s with stats := s.stats.pop }

def clear (s : StatStack) : Memory.Charge StatStack := do
  s.stats.toList.forM fun stat => Memory.release stat.values.bytes
  return { s with stats := #[] }

def get (s : StatStack) (index : Nat) : Except Error ValueTable :=
  match s.stats[index]? with
  | some stat => .ok stat.values
  | none => .error (.invalidArgument (.statIndex index s.depth))

def summary (s : StatStack) : String :=
  let names := ", ".intercalate (s.names.map Text.Quoted.quote)
  let maxStats := s.maxStats
  s!"StatStack \x7b names: [{names}], max_stats: {maxStats} \x7d"

end StatStack

/-- Adds the values of a chunk of documents to the sums of their groups, modulo `2 ^ 64`. -/
def sumChunk? (g : Grouping) (values : ValueTable) (sums : Array Int) (docs : List Nat) :
    Option (Array Int) := do
  let groups ← g.groupsOf? docs
  let values ← values.valuesOf? docs
  return (groups.zip values).foldl
    (fun sums (group, value) =>
      if group = 0 then sums else sums.modify group fun sum => wrap64 (sum + value)) sums

/-- The sum of the values of each group; that of group 0 is always 0. -/
def sumByGroup? (g : Grouping) (chunk : Nat) (values : ValueTable) : Option (List Int) :=
  ((chunks (max 1 chunk) (List.range g.len)).foldlM (sumChunk? g values)
    (Array.replicate g.numGroups 0)).map Array.toList

end Cohort
