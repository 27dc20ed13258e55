import Cohort.Regex.Matcher
import Cohort.Regex.Reader

/-!
# Regex engines: what compiles patterns and matches them

The library needs little of an engine: it compiles a text or tells that it is no pattern, and finds
matches in strings. `standard` is the engine that runs; what is said about splits by a pattern is
said of any engine.
-/

namespace Cohort.Regex

structure Engine where
  /-- What a text is compiled to. -/
  Pattern : Type
  /-- `none` if the text is not a pattern or too large. -/
  compile? : String → Option Pattern
  /-- Whether some part of the text matches. -/
  isMatch : Pattern → String → Bool
  /-- Whether the whole text matches. -/
  matchesAll : Pattern → String → Bool

namespace Engine

def standard : Engine := ⟨Node, Regex.compile?, Node.isMatch, Node.matchesAll⟩

/-- Compiles the text of a pattern in a group between the anchors of a string. -/
def enclosed? (e : Engine) (pattern : String) : Option e.Pattern :=
  e.compile? ("^(?:" ++ pattern ++ ")$")

/-- The text means in the group between the anchors what these are there for: it is a pattern there
just if it is one alone, and has a match in the strings that it matches as a whole. -/
structure Encloses (e : Engine) (pattern : String) : Prop where
  isSome_eq : (e.enclosed? pattern).isSome = (e.compile? pattern).isSome
  isMatch_eq : ∀ whole ∈ e.enclosed? pattern, ∀ re ∈ e.compile? pattern, ∀ text,
    e.isMatch whole text = e.matchesAll re text

end Engine

end Cohort.Regex
