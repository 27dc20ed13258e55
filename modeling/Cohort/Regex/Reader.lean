import Cohort.Regex.Bracket
import Cohort.Regex.Matcher
import Cohort.Regex.Size
import Cohort.Unicode.Additions
import Cohort.Word

/-!
# Reading patterns

A pattern is read from left to right. `Level` holds what was read of the innermost group, `State`
also the groups around it with the options to go back to. Parts that only switch options leave
an empty piece, which may not be repeated.

Patterns that nest too deeply or grow too large are refused.
-/

namespace Cohort.Regex

open Unicode (CharSet)

/-- A part of a pattern and how deeply it is nested. -/
structure Piece where
  node : Node
  depth : Nat
  repeatable : Bool := true

/-- The finished branches of a group and the parts of the current one, the latest first. -/
structure Level where
  branches : List Piece
  parts : List Piece

namespace Level

def empty : Level := ⟨[], []⟩

def deepest (pieces : List Piece) : Nat := (pieces.map (·.depth)).foldl max 0

/-- The current branch as one piece. -/
def branch (l : Level) : Piece :=
  match l.parts with
  | [] => ⟨.empty, 0, true⟩
  | [part] => part
  | last :: rest =>
    ⟨rest.foldl (fun node part => .seq part.node node) last.node, deepest l.parts + 1, true⟩

/-- The whole group as one piece. -/
def close (l : Level) : Piece :=
  match l.branches with
  | [] => l.branch
  | branches =>
    let last := l.branch
    ⟨branches.foldl (fun node b => .alt b.node node) last.node,
      max last.depth (deepest branches) + 1, true⟩

end Level

/-- A group that is still open: what was read before it, the options that hold after it, and whether
it remembers what it takes. -/
structure Opened where
  before : Level
  options : Options
  remembers : Bool

structure State where
  level : Level
  /-- The groups around, the innermost first. -/
  outer : List Opened
  options : Options
  /-- Names of groups so far. -/
  names : List (List Char)

namespace State

def start : State := ⟨.empty, [], {}, []⟩

def push (s : State) (p : Piece) : State :=
  { s with level := { s.level with parts := p :: s.level.parts } }

def pushNode (s : State) (n : Node) : State := s.push ⟨n, 0, true⟩

/-- Starts another branch. -/
def nextBranch (s : State) : State :=
  { s with level := ⟨s.level.branch :: s.level.branches, []⟩ }

/-- Enters a group in which `options` hold. -/
def enter (s : State) (options : Options) (remembers : Bool) : State :=
  { s with level := .empty, outer := ⟨s.level, s.options, remembers⟩ :: s.outer, options }

/-- Leaves the innermost group. -/
def leave? (s : State) : Option State :=
  match s.outer with
  | [] => none
  | opened :: outer =>
    let inside := s.level.close
    some <| { s with level := opened.before, outer, options := opened.options }.push
      ⟨.group opened.remembers inside.node, inside.depth + 1, true⟩

/-- Whether a question mark follows. -/
def readMark : List Char → Bool × List Char
  | '?' :: cs => (true, cs)
  | cs => (false, cs)

/-- Repeats the latest part. A question mark after the bounds makes the loop reluctant. -/
def repeatLast? (s : State) (min : Nat) (max : Option Nat) : Reader State := fun cs =>
  match s.level.parts with
  | [] => none
  | part :: parts =>
    if part.repeatable then
      let (marked, rest) := readMark cs
      let node := .rep part.node min max (marked == s.options.swapGreed)
      some ({ s with level.parts := ⟨node, part.depth + 1, true⟩ :: parts }, rest)
    else none

end State

/-- A character as a part of a pattern. Without the Unicode option no byte above ASCII may be
written by its digits. -/
def literal? (o : Options) (c : Char) (asByte : Bool) : Option Node :=
  let isAscii := c.toNat < 0x80
  if asByte && !o.unicode && !isAscii then none
  else if !o.ignoreCase then some (.set (.single c))
  else if o.unicode then some (.set (CharSet.single c).folded)
  else some (.set (CharSet.single c).foldedAscii)

def nodeOfAtom? (o : Options) : Atom → Option Node
  | .char c asByte => literal? o c asByte
  | .set s => some (.set s)
  | .look l => some (.look l)

/-- What the dot takes; without the Unicode option it would take parts of characters. -/
def dot? (o : Options) : Option CharSet :=
  if !o.unicode then none
  else if o.dotAll then some .any
  else if o.crlf then some (CharSet.ofChars ['\n', '\r']).complement
  else some (CharSet.single '\n').complement

def caret (o : Options) : Look :=
  if !o.multiLine then .textStart else if o.crlf then .crlfStart else .lineStart

def dollar (o : Options) : Look :=
  if !o.multiLine then .textEnd else if o.crlf then .crlfEnd else .lineEnd

/-- A number of repetitions, which may not exceed 32 bits. -/
def readCount (o : Options) : Reader Nat := fun cs =>
  let (digits, rest) := o.span Char.isDigit (cs.dropWhile Unicode.isWhiteSpace)
  (Text.number? Text.decimalDigit? 10 digits).bind fun n =>
    if n < halfWordBound then some (n, rest.dropWhile Unicode.isWhiteSpace) else none

/-- The upper bound of a repetition, after the comma; it may be left out. -/
def readUpper (o : Options) (min : Nat) : Reader (Option Nat) := fun cs =>
  match o.skip cs with
  | '\x7d' :: rest => some (none, rest)
  | cs => (readCount o cs).bind fun
    | (max, '\x7d' :: rest) => if min ≤ max then some (some max, rest) else none
    | _ => none

/-- The bounds of a repetition, after the opening brace. -/
def readBounds (o : Options) : Reader (Nat × Option Nat) := fun cs =>
  (readCount o (o.skip cs)).bind fun
    | (min, '\x7d' :: rest) => some ((min, some min), rest)
    | (min, ',' :: cs) => (readUpper o min cs).map fun (max, rest) => ((min, max), rest)
    | _ => none

/-- Whether `c` may stand in the name of a group. -/
def isNameChar (first : Bool) (c : Char) : Bool :=
  c == '_' || Unicode.isAlphabetic c ||
    (!first && (c == '.' || c == '[' || c == ']' ||
      [.decimalNumber, .letterNumber, .otherNumber].contains (Unicode.Category.latest c)))

/-- The name of a group, up to the closing angle bracket. -/
def readName : Reader (List Char) := fun cs =>
  match cs.takeWhile (· != '>'), cs.dropWhile (· != '>') with
  | first :: more, _ :: rest =>
    if isNameChar true first && more.all (isNameChar false) then some (first :: more, rest)
    else none
  | _, _ => none

/-- A group with a name of its own. -/
def State.enterNamed? (s : State) : Reader State := fun cs =>
  (readName cs).bind fun (name, rest) =>
    if s.names.contains name then none
    else some ({ s with names := name :: s.names }.enter s.options true, rest)

/-- What the question mark after an opening parenthesis starts: a group, or a switch of options.
Looking around is not supported. -/
def State.enterMarked? (s : State) : Reader State
  | 'P' :: '<' :: cs => s.enterNamed? cs
  | '<' :: '=' :: _ => none
  | '<' :: '!' :: _ => none
  | '<' :: cs => s.enterNamed? cs
  | cs => (readSettings [] false false cs).bind fun ((settings, isGroup), rest) =>
    let options := s.options.apply settings
    if isGroup then some (s.enter options false, rest)
    else if settings.isEmpty then none
    else some ({ s with options }.push ⟨.empty, 0, false⟩, rest)

/-- What an opening parenthesis starts. -/
def State.enter? (s : State) : Reader State := fun cs =>
  match s.options.skip cs with
  | '?' :: cs => s.enterMarked? cs
  | cs => some (s.enter s.options true, cs)

/-- Reads the next part, which takes at least one character. -/
def State.step? (s : State) : Reader State
  | [] => none
  | '(' :: cs => s.enter? cs
  | ')' :: cs => s.leave?.map (·, cs)
  | '|' :: cs => some (s.nextBranch, cs)
  | '[' :: cs => (readClass s.options cs).map fun (c, rest) =>
    (s.push ⟨.set c.set, c.depth, true⟩, rest)
  | '?' :: cs => s.repeatLast? 0 (some 1) cs
  | '*' :: cs => s.repeatLast? 0 none cs
  | '+' :: cs => s.repeatLast? 1 none cs
  | '\x7b' :: cs => (readBounds s.options cs).bind fun ((min, max), rest) =>
    s.repeatLast? min max (s.options.skip rest)
  | '\\' :: cs => (readEscape s.options cs).bind fun (atom, rest) =>
    (nodeOfAtom? s.options atom).map fun node => (s.pushNode node, rest)
  | '.' :: cs => (dot? s.options).map fun set => (s.pushNode (.set set), cs)
  | '^' :: cs => some (s.pushNode (.look (caret s.options)), cs)
  | '$' :: cs => some (s.pushNode (.look (dollar s.options)), cs)
  | c :: cs => (literal? s.options c false).map fun node => (s.pushNode node, cs)

/-- Reads part after part, until one cannot be read or nothing is left. There are at most `fuel`
parts. -/
def State.readOn : Nat → State → List Char → State × List Char
  | 0, s, cs => (s, cs)
  | fuel + 1, s, cs =>
    match s.step? (s.options.skip cs) with
    | some (next, rest) => next.readOn fuel rest
    | none => (s, s.options.skip cs)

/-- Where the reading of a pattern stops, and what is left there. -/
def stop (cs : List Char) : State × List Char := State.start.readOn (cs.length + 1) cs

/-- The piece that a pattern is: all of it must be read, and no group may be open. -/
def read? (cs : List Char) : Option Piece :=
  let (s, rest) := stop cs
  if rest.isEmpty && s.outer.isEmpty then some s.level.close else none

/-- How deeply a pattern may be nested. -/
def depthLimit : Nat := 250

/-- Whether a piece is not too deep and not too large for a pattern. -/
def Piece.fits (p : Piece) : Bool := p.depth ≤ depthLimit && p.node.form.fits

/-- The pattern that a text writes, or `none` if it is not a pattern or too large. -/
def compile? (pattern : String) : Option Node := do
  let whole ← read? pattern.toList
  if whole.fits then some whole.node else none

end Cohort.Regex
