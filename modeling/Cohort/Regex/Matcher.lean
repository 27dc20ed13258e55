import Cohort.Regex.Node

/-!
# Matching

A pattern takes positions of a text to positions: `reach` gives, from a list of starts, all
positions where the pattern can have ended. A loop without a bound is run until nothing new is
reached, so a loop whose body matches nothing at all ends too.
-/

namespace Cohort.Regex

/-- The positions of both lists, once each. -/
def merge (ps qs : List Nat) : List Nat := (ps ++ qs).eraseDups

/-- Takes `n` steps. -/
def iterate (step : List Nat → List Nat) : Nat → List Nat → List Nat
  | 0, ps => ps
  | n + 1, ps =>
    let next := step ps
    if next = ps then ps else iterate step n next

/-- Takes up to `n` steps. -/
def spread (step : List Nat → List Nat) : Nat → List Nat → List Nat
  | 0, ps => ps
  | n + 1, ps =>
    let next := merge ps (step ps)
    if next.length = ps.length then ps else spread step n next

namespace Node

/-- The character before a position. -/
def before? (text : Array Char) : Nat → Option Char
  | 0 => none
  | i + 1 => text[i]?

/-- The positions that a match from one of `starts` can end at. -/
def reach (text : Array Char) : Node → List Nat → List Nat
  | empty, starts => starts
  | set s, starts =>
    starts.filterMap fun i => if text[i]?.any s.mem then some (i + 1) else none
  | look l, starts => starts.filter fun i => l.holds (before? text i) text[i]?
  | seq a b, starts => b.reach text (a.reach text starts)
  | alt a b, starts => merge (a.reach text starts) (b.reach text starts)
  | group _ body, starts => body.reach text starts
  | rep body min max _, starts =>
    let ends := iterate (body.reach text) min starts
    match max with
    | some max => spread (body.reach text) (max - min) ends
    | none => spread (body.reach text) (text.size + 1) ends

/-- Whether some part of the text matches. -/
def isMatch (r : Node) (text : String) : Bool :=
  let text := text.toList.toArray
  !(r.reach text (List.range (text.size + 1))).isEmpty

/-- Whether the whole text matches. -/
def matchesAll (r : Node) (text : String) : Bool :=
  let text := text.toList.toArray
  (r.reach text [0]).contains text.size

end Node

end Cohort.Regex
