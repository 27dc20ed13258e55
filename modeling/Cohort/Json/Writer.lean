import Cohort.Json.Value

/-!
# Writing JSON text

`render` puts everything on one line without blanks; `pretty` puts every item on a line of its own,
two blanks further in per level, and leaves empty arrays and objects closed. Strings escape the
quote, the backslash and control characters only. What cannot be held is written as `null`.
-/

namespace Cohort.Json

def hexDigit (n : Nat) : Char := Nat.digitChar (n % 16)

def escapeChar (c : Char) : List Char :=
  match c with
  | '"' => ['\\', '"']
  | '\\' => ['\\', '\\']
  | '\x08' => ['\\', 'b']
  | '\x0c' => ['\\', 'f']
  | '\n' => ['\\', 'n']
  | '\r' => ['\\', 'r']
  | '\t' => ['\\', 't']
  | c =>
    if c.toNat < 0x20 then ['\\', 'u', '0', '0', hexDigit (c.toNat / 16), hexDigit c.toNat]
    else [c]

def quoteString (s : String) : String :=
  "\"" ++ .ofList (s.toList.flatMap escapeChar) ++ "\""

/-- A value on one line. -/
def render : Json → String
  | null | unfit => "null"
  | bool true => "true"
  | bool false => "false"
  | int v => toString v
  | real x => x.toText
  | str s => quoteString s
  | arr items => "[" ++ ",".intercalate (items.attach.map fun ⟨j, _⟩ => j.render) ++ "]"
  | obj members =>
    "\x7b" ++ ",".intercalate
      (members.attach.map fun ⟨(name, j), _⟩ => quoteString name ++ ":" ++ j.render) ++ "\x7d"
termination_by j => sizeOf j
decreasing_by
  · have := List.sizeOf_lt_of_mem ‹_›
    simp only [arr.sizeOf_spec]
    omega
  · have := List.sizeOf_lt_of_mem ‹_›
    simp only [obj.sizeOf_spec]
    simp only [Prod.mk.sizeOf_spec] at this
    omega

/-- A line break and `level` steps of indentation. -/
def lineBreak (level : Nat) : String := .ofList ('\n' :: List.replicate (2 * level) ' ')

/-- Items on lines of their own between brackets. -/
def block (opening closing : String) (level : Nat) (items : List String) : String :=
  if items.isEmpty then opening ++ closing
  else
    opening ++ lineBreak (level + 1) ++ ("," ++ lineBreak (level + 1)).intercalate items
      ++ lineBreak level ++ closing

/-- A value over several lines, starting `level` steps in. -/
def prettyAt (level : Nat) : Json → String
  | arr items => block "[" "]" level (items.attach.map fun ⟨j, _⟩ => j.prettyAt (level + 1))
  | obj members =>
    block "\x7b" "\x7d" level <|
      members.attach.map fun ⟨(name, j), _⟩ => quoteString name ++ ": " ++ j.prettyAt (level + 1)
  | j => j.render
termination_by j => sizeOf j
decreasing_by
  · have := List.sizeOf_lt_of_mem ‹_›
    simp only [arr.sizeOf_spec]
    omega
  · have := List.sizeOf_lt_of_mem ‹_›
    simp only [obj.sizeOf_spec]
    simp only [Prod.mk.sizeOf_spec] at this
    omega

def pretty (j : Json) : String := j.prettyAt 0

end Cohort.Json
