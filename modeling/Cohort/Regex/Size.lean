import Cohort.Regex.Form
import Cohort.Regex.Memo
import Cohort.Unicode.Utf8

/-!
# Size of a pattern

A pattern is run by two automata over the bytes of a text, one that reads forwards and one that
reads backwards, and is refused if either grows past `sizeLimit`. `Form.tally` counts what building
one of them takes: 32 bytes a state, 8 more for each arrow of a state with a list of arrows, and 4
more for each branch of a state that forks. A loop with bounds is built by repeating its body, and
counting stops once the limit is passed.

Sets of characters dominate the count. Forwards, the states for one set are those of the smallest
tree of bytes, as far as a memory of 10000 slots recognises states with equal arrows. Backwards,
every piece of a set is a chain of states of its own, which starts off along a chain that a memory
of 1000 slots recognises.
-/

namespace Cohort.Regex

open Unicode

/-- What building an automaton took so far. States are numbered in the order in which they are
built. -/
structure Tally where
  states : Nat
  /-- Bytes for arrows and branches. -/
  extra : Nat
  memo : Memo

def sizeLimit : Nat := 10 * 1024 * 1024

namespace Tally

def bytes (t : Tally) : Nat := 32 * t.states + t.extra

def isOver (t : Tally) : Bool := sizeLimit < t.bytes

/-- Builds `n` plain states. -/
def add (t : Tally) (n : Nat) : Tally := { t with states := t.states + n }

/-- Builds a state with a list of `n` arrows. -/
def arrows (t : Tally) (n : Nat) : Tally :=
  { t with states := t.states + 1, extra := t.extra + 8 * n }

/-- Builds a state that forks into `n` branches. -/
def fork (t : Tally) (n : Nat) : Tally :=
  { t with states := t.states + 1, extra := t.extra + 4 * n }

/-- Gives a forking state `n` more branches. -/
def branch (t : Tally) (n : Nat) : Tally := { t with extra := t.extra + 4 * n }

/-- Builds a state with `n` listed arrows unless one with the same key is remembered; gives its
number. -/
def shared (t : Tally) (key : List Nat) (n : Nat) : Nat × Tally :=
  let slot := t.memo.slot key
  match t.memo.at? slot key with
  | some known => (known, t)
  | none =>
    (t.states, ⟨t.states + 1, t.extra + 8 * n, t.memo.put slot key t.states⟩)

/-- Takes a step `n` times, or until the limit is passed. -/
def times (step : Tally → Tally) : Nat → Tally → Tally
  | 0, t => t
  | n + 1, t => if t.isOver then t else times step n (step t)

/-- The pieces of a set by their first ranges of bytes, each with what follows it. -/
def byFirst (pieces : List (List (Nat × Nat))) :
    List ((Nat × Nat) × List (List (Nat × Nat))) :=
  (pieces.splitBy fun p q => p.head? == q.head?).filterMap fun group =>
    (group.head?.bind List.head?).map (·, group.map List.tail)

/-- Builds the tree of pieces with at most `depth` bytes, whose leaves lead to `goal`. -/
def tree (goal : Nat) : (depth : Nat) → List (List (Nat × Nat)) → Tally → Nat × Tally
  | 0, _, t => (goal, t)
  | depth + 1, pieces, t =>
    let groups := byFirst pieces
    let (key, t) := groups.foldl (fun (key, t) ((first, last), rest) =>
      let (target, t) := if rest.all (·.isEmpty) then (goal, t) else tree goal depth rest t
      (target :: last :: first :: key, t)) ([], t)
    t.shared key.reverse groups.length

/-- Builds a chain from the last byte of a piece to its first, ending at `goal`. -/
def chain (goal : Nat) (piece : List (Nat × Nat)) (t : Tally) : Tally :=
  (piece.foldl (fun (target, t) (first, last) => shared t [target, first, last] 0) (goal, t)).2

/-- Builds a set of characters. -/
def set (backward : Bool) (s : CharSet) (t : Tally) : Tally :=
  if s.isAscii then (t.add 1).arrows s.ranges.length
  else
    let pieces := s.ranges.flatMap fun (first, last) => Utf8.pieces first last
    if backward then
      let goal := t.states + 1
      pieces.foldl (fun t piece => (chain goal piece t).branch 1) ((t.fork 0).add 1)
    else (tree t.states 4 pieces (t.add 1)).2

/-- The texts up to each one that ends here, and those after the last one that does. -/
def splitAtEnds : List (List Nat) → List (List (List Nat))
  | [] => [[]]
  | [] :: texts => [] :: splitAtEnds texts
  | text :: texts =>
    match splitAtEnds texts with
    | [] => [[text]]
    | next :: more => (text :: next) :: more

/-- Texts that end here and come first count once. -/
def dropRepeatedEnds : List (List Nat) → List (List Nat)
  | [] :: texts => [] :: texts.dropWhile (·.isEmpty)
  | texts => texts

/-- Builds the tree of several texts, which branches where they differ. In each node the texts
before one that ends there and those after it are kept apart, since the earlier text is preferred;
the node forks to each lot and to each end. Texts have at most `depth` bytes. -/
def textTree : (depth : Nat) → List (List Nat) → Tally → Tally
  | 0, _, t => t
  | depth + 1, texts, t =>
    let lots := splitAtEnds (dropRepeatedEnds texts)
    lots.foldl (fun t lot =>
      let heads := (lot.filterMap List.head?).eraseDups
      if heads.isEmpty then t
      else
        let t := (t.arrows (if heads.length = 1 then 0 else heads.length)).branch 1
        heads.foldl (fun t head =>
          let rest := (lot.filter (·.head? == some head)).map List.tail
          if rest.all (·.isEmpty) then t else textTree depth rest t) t)
      (t.fork (lots.length - 1))

/-- Builds alternatives that are all texts. -/
def texts (texts : List (List Nat)) (t : Tally) : Tally :=
  textTree ((texts.map List.length).foldl max 0 + 1) texts (t.add 1)

end Tally

namespace Form

def text? : Form → Option (List Char)
  | text cs => some cs
  | _ => none

def bytes (cs : List Char) : List Nat := cs.flatMap fun c => Utf8.encode c.toNat

mutual

/-- Counts what building the automaton for a form takes. Every state is counted with the branches
that lead on from it. -/
def count (backward : Bool) : Form → Tally → Tally
  | empty, t | look _, t => t.add 1
  | text cs, t => t.add (bytes cs).length
  | set s, t => t.set backward s
  | group body, t =>
    if backward then count backward body t else (count backward body (t.add 1)).add 1
  | seq parts, t => if backward then countBackward parts t else countForward parts t
  | alt branches, t =>
    match branches.mapM text? with
    | some texts =>
      let texts := texts.map bytes
      t.texts (if backward then texts.map List.reverse else texts)
    | none => countBranches backward 0 branches t
  | rep body 0 (some 1) _, t => (count backward body (t.fork 2)).add 1
  | rep body 0 none _, t =>
    if body.takesSome then count backward body (t.fork 2)
    else (((count backward body t).fork 2).fork 2).add 1
  | rep body (min + 1) none _, t => (t.times (count backward body) (min + 1)).fork 2
  | rep body min (some max) _, t =>
    let t := if min = 0 then t.add 1 else t.times (count backward body) min
    if min = max then t
    else (t.add 1).times (fun t => count backward body (t.fork 2)) (max - min)

/-- Counts the parts of a sequence from first to last. -/
def countForward : List Form → Tally → Tally
  | [], t => t
  | f :: fs, t => countForward fs (count false f t)

/-- Counts the parts of a sequence from last to first. -/
def countBackward : List Form → Tally → Tally
  | [], t => t
  | f :: fs, t => count true f (countBackward fs t)

/-- Counts branches, of which `n` came before. The states where they part and where they meet are
built after the second one. -/
def countBranches (backward : Bool) (n : Nat) : List Form → Tally → Tally
  | [], t => t
  | f :: fs, t =>
    let t := (count backward f t).branch 1
    countBranches backward (n + 1) fs (if n = 1 then t.add 2 else t)

end

/-- Counts what the automaton for a pattern takes. Unless the pattern is held at the side where
reading begins, a loop over single bytes precedes it; forwards, the whole match is remembered. -/
def tally (backward : Bool) (f : Form) : Tally :=
  let held := if backward then f.anchoredEnd else f.anchoredStart
  let t : Tally := ⟨0, 0, .ofSize (if backward then 1000 else 10000)⟩
  let t := if held then t.add 1 else ((t.fork 2).add 1).arrows 1
  let t := if backward then count true f t else (count false f (t.add 1)).add 1
  t.add 1

/-- Whether the automata for a pattern stay within the limit. -/
def fits (f : Form) : Bool := !(f.tally false).isOver && !(f.tally true).isOver

end Form

end Cohort.Regex
