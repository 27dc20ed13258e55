import Cohort.Regex.Node
import Cohort.Regex.Options
import Cohort.Regex.PropertyName
import Cohort.Text.Digits

/-!
# Escapes

What a backslash starts: a character, a class or an assertion. Without the Unicode option a class
may not hold anything but ASCII, so that its opposite is refused. An escaped letter or digit must
have a meaning; any other ASCII character stands for itself.
-/

namespace Cohort.Regex

open Unicode (CharSet)

/-- One part of a pattern or of a bracketed class. -/
inductive Atom where
  /-- A character; `asByte` marks one that was written by two hexadecimal digits. -/
  | char (c : Char) (asByte : Bool)
  | set (s : CharSet)
  | look (l : Look)

/-- Applies the case option and then a negation. -/
def Options.finishSet (o : Options) (negated : Bool) (s : CharSet) : Option CharSet :=
  let s := if !o.ignoreCase then s else if o.unicode then s.folded else s.foldedAscii
  if !negated then some s else if o.unicode then some s.complement else none

/-- The class of a letter as in `\d`, in upper case for the opposite. -/
def perlSet? (o : Options) (letter : Char) : Option CharSet :=
  let s :=
    match letter.toLower with
    | 'd' => if o.unicode then CharClass.digit else CharClass.asciiDigit
    | 's' => if o.unicode then CharClass.space else CharClass.asciiSpace
    | _ => if o.unicode then CharClass.word else CharClass.asciiWord
  if letter.isLower then some s else if o.unicode then some s.complement else none

/-- The character of a code point that is one. -/
def charOf? (n : Nat) : Option Char := if n.isValidChar then some (Char.ofNat n) else none

/-- `n` hexadecimal digits. -/
def readHexDigits (o : Options) : Nat → Nat → Reader Nat
  | 0, value, cs => some (value, cs)
  | n + 1, value, c :: cs => do
    let d ← Text.hexDigit? c
    readHexDigits o n (value * 16 + d) (o.skip cs)
  | _ + 1, _, [] => none

/-- What stands before the closing brace. -/
def readBraced (o : Options) : Reader (List Char) := fun cs =>
  match o.span (· != '\x7d') (o.skip cs) with
  | (inside, _ :: rest) => some (inside, rest)
  | (_, []) => none

/-- A character by its code point, in `width` digits or between braces. -/
def readHex (o : Options) (width : Nat) : Reader Atom := fun cs =>
  match o.skip cs with
  | '\x7b' :: cs => (readBraced o cs).bind fun (digits, rest) =>
    ((Text.number? Text.hexDigit? 16 digits).bind charOf?).map fun c =>
      (.char c false, o.skip rest)
  | cs => (readHexDigits o width 0 cs).bind fun (n, rest) =>
    (charOf? n).map fun c => (.char c (width == 2), rest)

/-- The set that a property names, by one letter or between braces, and whether its opposite is
meant. -/
def readPropertyName (o : Options) : Reader (Bool × CharSet) := fun cs =>
  match o.skip cs with
  | '\x7b' :: cs => (readBraced o cs).bind fun (name, rest) =>
    (PropertyName.inBraces? name).map (·, rest)
  | '\\' :: _ => none
  | c :: cs => (PropertyName.set? [c]).map fun s => ((false, s), o.skip cs)
  | [] => none

/-- A Unicode property. -/
def readProperty (o : Options) (negated : Bool) : Reader Atom := fun cs =>
  (readPropertyName o cs).bind fun ((opposite, s), rest) =>
    if o.unicode then (o.finishSet (negated != opposite) s).map (.set ·, rest) else none

def edgeOfName? : String → Option WordEdge
  | "start" => some .start
  | "end" => some .stop
  | "start-half" => some .startHalf
  | "end-half" => some .stopHalf
  | _ => none

/-- Whether `c` may stand in the name of an edge. -/
def isEdgeChar (c : Char) : Bool := c.isAlpha || c == '-'

/-- The name of an edge, with the closing brace behind it. -/
def readEdgeName (o : Options) : Reader WordEdge := fun cs =>
  match o.span isEdgeChar cs with
  | (name, '\x7d' :: rest) => (edgeOfName? (.ofList name)).map (·, rest)
  | _ => none

/-- What follows `\b`: the name of an edge between braces, if a letter or hyphen follows the brace;
otherwise the brace starts a count. -/
def readEdge (o : Options) : Reader WordEdge
  | '\x7b' :: cs =>
    match o.skip cs with
    | [] => none
    | c :: inside =>
      if isEdgeChar c then readEdgeName o (c :: inside) else some (.boundary, '\x7b' :: cs)
  | cs => some (.boundary, cs)

/-- The character that an escaped letter stands for. -/
def controlOf? : Char → Option Char
  | 'a' => some '\x07'
  | 'f' => some '\x0c'
  | 't' => some '\t'
  | 'n' => some '\n'
  | 'r' => some '\r'
  | 'v' => some '\x0b'
  | _ => none

/-- What a character after a backslash means by itself. -/
def escaped? (o : Options) (c : Char) : Option Atom :=
  match c with
  | 'd' | 's' | 'w' | 'D' | 'S' | 'W' => (perlSet? o c).map .set
  | 'A' => some (.look .textStart)
  | 'z' => some (.look .textEnd)
  | 'B' => some (.look (.word .interior o.unicode))
  | '<' => some (.look (.word .start o.unicode))
  | '>' => some (.look (.word .stop o.unicode))
  | _ =>
    match controlOf? c with
    | some control => some (.char control false)
    | none => if c.toNat < 0x80 && !c.isAlphanum then some (.char c false) else none

/-- What the character after a backslash starts. -/
def readEscape (o : Options) : Reader Atom
  | [] => none
  | 'x' :: cs => readHex o 2 cs
  | 'u' :: cs => readHex o 4 cs
  | 'U' :: cs => readHex o 8 cs
  | 'p' :: cs => readProperty o false cs
  | 'P' :: cs => readProperty o true cs
  | 'b' :: cs => (readEdge o cs).map fun (edge, rest) => (.look (.word edge o.unicode), rest)
  | c :: cs => (escaped? o c).map (·, cs)

end Cohort.Regex
