import Cohort.Unicode.Property

/-!
# Options of a pattern

`(?i)` and the like switch options for the rest of a group, `(?i:...)` for one group. Settings after
a minus sign switch off, and no letter may be given twice. In verbose patterns blanks and comments
stand between the parts.
-/

namespace Cohort.Regex

/-- Reads something off the front of a text and leaves the rest, unless it is not there. -/
abbrev Reader (α : Type) := List Char → Option (α × List Char)

inductive Letter where
  | ignoreCase
  | multiLine
  | dotAll
  /-- Swaps greedy and reluctant loops. -/
  | swapGreed
  | unicode
  | crlf
  | verbose
  deriving DecidableEq, Repr

def Letter.ofChar? : Char → Option Letter
  | 'i' => some .ignoreCase
  | 'm' => some .multiLine
  | 's' => some .dotAll
  | 'U' => some .swapGreed
  | 'u' => some .unicode
  | 'R' => some .crlf
  | 'x' => some .verbose
  | _ => none

structure Options where
  ignoreCase : Bool := false
  /-- The anchors hold at line ends too. -/
  multiLine : Bool := false
  /-- The dot takes line feeds too. -/
  dotAll : Bool := false
  /-- Loops are reluctant unless marked. -/
  swapGreed : Bool := false
  /-- Classes, boundaries and cases know more than ASCII. -/
  unicode : Bool := true
  /-- A carriage return ends a line. -/
  crlf : Bool := false
  verbose : Bool := false
  deriving DecidableEq, Repr

namespace Options

def set (o : Options) : Letter → Bool → Options
  | .ignoreCase, b => { o with ignoreCase := b }
  | .multiLine, b => { o with multiLine := b }
  | .dotAll, b => { o with dotAll := b }
  | .swapGreed, b => { o with swapGreed := b }
  | .unicode, b => { o with unicode := b }
  | .crlf, b => { o with crlf := b }
  | .verbose, b => { o with verbose := b }

def apply (o : Options) (settings : List (Letter × Bool)) : Options :=
  settings.foldl (fun o (letter, on) => o.set letter on) o

end Options

/-- Letters and whether they switch on, up to the colon or parenthesis that ends them; `minus` tells
whether a minus sign came by, and `dangling` whether just now. Gives the settings, and whether the
end is a colon. -/
def readSettings (settings : List (Letter × Bool)) (minus dangling : Bool) :
    Reader (List (Letter × Bool) × Bool)
  | [] => none
  | c :: cs =>
    if c = ':' || c = ')' then
      if dangling then none else some ((settings.reverse, c == ':'), cs)
    else if c = '-' then
      if minus then none else readSettings settings true true cs
    else
      match Letter.ofChar? c with
      | none => none
      | some letter =>
        if settings.any (·.1 = letter) then none
        else readSettings ((letter, !minus) :: settings) minus false cs

/-- Drops blanks and comments, which start at `#` and end with the line. -/
def skipComments (inComment : Bool) : List Char → List Char
  | [] => []
  | c :: cs =>
    if inComment then skipComments (c != '\n') cs
    else if Unicode.isWhiteSpace c then skipComments false cs
    else if c = '#' then skipComments true cs
    else c :: cs

/-- Drops what means nothing under the options. -/
def Options.skip (o : Options) (cs : List Char) : List Char :=
  if o.verbose then skipComments false cs else cs

/-- The characters on which `p` holds, skipping after each. -/
def Options.spanWithin (o : Options) (p : Char → Bool) :
    Nat → List Char → List Char × List Char
  | n + 1, c :: cs =>
    if p c then
      let (taken, rest) := o.spanWithin p n (o.skip cs)
      (c :: taken, rest)
    else ([], c :: cs)
  | _, cs => ([], cs)

/-- The longest run of characters on which `p` holds, and the rest. -/
def Options.span (o : Options) (p : Char → Bool) (cs : List Char) : List Char × List Char :=
  o.spanWithin p cs.length cs

end Cohort.Regex
