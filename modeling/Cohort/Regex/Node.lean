import Cohort.Regex.CharClass

/-!
# Patterns

A `Node` is a pattern with its options resolved: every position says which characters it takes, and
every assertion which boundary it means. What a group takes and whether a loop is greedy change
nothing about what matches; both are kept because the size of the automaton depends on them.
-/

namespace Cohort.Regex

open Unicode (CharSet)

/-- Where a word boundary lies, seen from the position between two characters. -/
inductive WordEdge where
  | boundary
  | interior
  | start
  | stop
  /-- No word character before. -/
  | startHalf
  /-- No word character after. -/
  | stopHalf
  deriving DecidableEq, Repr

/-- A condition on a position. -/
inductive Look where
  | textStart
  | textEnd
  | lineStart
  | lineEnd
  /-- Line ends are line feeds, carriage returns, and the two in a row. -/
  | crlfStart
  | crlfEnd
  | word (edge : WordEdge) (unicode : Bool)
  deriving DecidableEq, Repr

namespace WordEdge

/-- Whether the edge lies between a side with a word character or without one. -/
def holds : WordEdge → (before after : Bool) → Bool
  | boundary, before, after => before != after
  | interior, before, after => before == after
  | start, before, after => !before && after
  | stop, before, after => before && !after
  | startHalf, before, _ => !before
  | stopHalf, _, after => !after

end WordEdge

namespace Look

/-- Whether the condition holds between two characters, which are missing at the ends. -/
def holds : Look → (before after : Option Char) → Bool
  | textStart, before, _ => before.isNone
  | textEnd, _, after => after.isNone
  | lineStart, before, _ => before.all (· == '\n')
  | lineEnd, _, after => after.all (· == '\n')
  | crlfStart, before, after =>
    before.all fun c => c == '\n' || (c == '\r' && after != some '\n')
  | crlfEnd, before, after =>
    after.all fun c => c == '\r' || (c == '\n' && before != some '\r')
  | word edge unicode, before, after =>
    let isWord := if unicode then CharClass.word.mem else CharClass.asciiWord.mem
    edge.holds (before.any isWord) (after.any isWord)

end Look

inductive Node where
  | empty
  | set (s : CharSet)
  | look (l : Look)
  | seq (a b : Node)
  | alt (a b : Node)
  /-- From `min` to `max` times, without a bound if `max` is missing. -/
  | rep (body : Node) (min : Nat) (max : Option Nat) (greedy : Bool)
  /-- A part in parentheses, which may remember what it takes. -/
  | group (remembers : Bool) (body : Node)

end Cohort.Regex
