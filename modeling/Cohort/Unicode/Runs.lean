import Cohort.Unicode.CharSet

/-!
# Runs: tables over code points

A table that is constant on long stretches of code points is kept as the first code point of each
stretch, ascending, with the value there. `find?` bisects; `set` collects the code points with
certain values.
-/

namespace Cohort.Unicode

structure Runs (α : Type) where
  starts : Array (Nat × α)

namespace Runs

variable {α : Type}

/-- Bisects `lo .. hi` for the first stretch that starts past `x`. -/
def bisect (starts : Array (Nat × α)) (x lo hi : Nat) : Nat :=
  if lo < hi then
    let mid := (lo + hi) / 2
    if (starts[mid]?.map (·.1)).any (· ≤ x) then bisect starts x (mid + 1) hi
    else bisect starts x lo mid
  else lo
termination_by hi - lo

/-- The value of the stretch that holds `x`. -/
def find? (r : Runs α) (x : Nat) : Option α :=
  match bisect r.starts x 0 r.starts.size with
  | 0 => none
  | k + 1 => r.starts[k]?.map (·.2)

/-- The stretches whose values satisfy `p`, in order. -/
def stretches (p : α → Bool) : List (Nat × α) → List (Nat × Nat)
  | [] => []
  | [(first, v)] => if p v then [(first, CharSet.last)] else []
  | (first, v) :: (after, w) :: rest =>
    let more := stretches p ((after, w) :: rest)
    if p v then (first, after - 1) :: more else more

/-- The characters whose values satisfy `p`. -/
def set (r : Runs α) (p : α → Bool) : CharSet := CharSet.coalesce (stretches p r.starts.toList)

/-- A run as written: a length, 1 if it is left out, and a name of `more + 1` letters. -/
def splitRun (more : Nat) (cs : List Char) : Nat × String × List Char :=
  let digits := cs.takeWhile Char.isDigit
  let rest := cs.dropWhile Char.isDigit
  let length := digits.foldl (fun n d => n * 10 + (d.toNat - '0'.toNat)) 0
  (if digits.isEmpty then 1 else length, .ofList (rest.take (more + 1)), rest.drop (more + 1))

theorem length_splitRun (more : Nat) (c : Char) (cs : List Char) :
    (splitRun more (c :: cs)).2.2.length < (c :: cs).length := by
  have h : ((c :: cs).dropWhile Char.isDigit).length ≤ (c :: cs).length :=
    (List.dropWhile_suffix _).length_le
  simp only [splitRun, List.length_drop, List.length_cons] at *
  omega

/-- Reads runs that follow each other from code point `start` on. -/
def ofChars (more : Nat) (value? : String → Option α) (start : Nat) :
    List Char → List (Nat × α)
  | [] => []
  | c :: cs =>
    let run := splitRun more (c :: cs)
    let rest := ofChars more value? (start + run.1) run.2.2
    match value? run.2.1 with
    | some v => (start, v) :: rest
    | none => rest
termination_by cs => cs.length
decreasing_by exact length_splitRun more c cs

/-- The table whose lines hold runs from code point 0 on, with names of `more + 1` letters. -/
def ofText (more : Nat) (value? : String → Option α) (lines : List String) : Runs α :=
  ⟨(ofChars more value? 0 (lines.flatMap String.toList)).toArray⟩

end Runs

end Cohort.Unicode
