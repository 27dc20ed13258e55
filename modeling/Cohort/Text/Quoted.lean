import Cohort.Unicode.Additions

/-!
# Quoted text: a string between double quotes, with what cannot be seen written out

Tab, line feed, carriage return, NUL, the double quote and the backslash have two-character
escapes. A character that has no shape of its own (a control, a format character, a space other
than U+0020, a filler, a private or unassigned code point) or that joins the one before it is
written by its code point in hexadecimal. Everything else stands for itself, all other printable
ASCII characters among them. Characters are judged by Unicode 17.
-/

namespace Cohort.Text.Quoted

open Unicode

/-- Spacing marks that extend the character before them. -/
def extendingSpacingMarks : List (Nat × Nat) :=
  [(0x9be, 0x9be), (0x9d7, 0x9d7), (0xb3e, 0xb3e), (0xb57, 0xb57), (0xbbe, 0xbbe), (0xbd7, 0xbd7),
   (0xcc0, 0xcc0), (0xcc2, 0xcc2), (0xcc7, 0xcc8), (0xcca, 0xccb), (0xcd5, 0xcd6), (0xd3e, 0xd3e),
   (0xd57, 0xd57), (0xdcf, 0xdcf), (0xddf, 0xddf), (0x1715, 0x1715), (0x1734, 0x1734),
   (0x1b35, 0x1b35), (0x1b3b, 0x1b3b), (0x1b3d, 0x1b3d), (0x1b43, 0x1b44), (0x1baa, 0x1baa),
   (0x1bf2, 0x1bf3), (0x302e, 0x302f), (0xa953, 0xa953), (0xa9c0, 0xa9c0), (0x111c0, 0x111c0),
   (0x11235, 0x11235), (0x1133e, 0x1133e), (0x1134d, 0x1134d), (0x11357, 0x11357),
   (0x113b8, 0x113b8), (0x113c2, 0x113c2), (0x113c5, 0x113c5), (0x113c7, 0x113c9),
   (0x113cf, 0x113cf), (0x114b0, 0x114b0), (0x114bd, 0x114bd), (0x115af, 0x115af),
   (0x116b6, 0x116b6), (0x11930, 0x11930), (0x1193d, 0x1193d), (0x11f41, 0x11f41),
   (0x16ff0, 0x16ff1), (0x1d165, 0x1d166), (0x1d16d, 0x1d172)]

/-- Whether a mark joins the character before it. -/
def extendsPrevious (c : Char) : Bool :=
  match Category.latest c with
  | .nonspacingMark | .enclosingMark => true
  | .spacingMark =>
    extendingSpacingMarks.any fun (first, last) => first ≤ c.toNat && c.toNat ≤ last
  | _ => false

/-- Letters without a shape, which fill the place of a part of a Hangul syllable. -/
def fillers : List Char := ['\u115f', '\u1160', '\u3164', '\uffa0']

def hasShape (c : Char) : Bool :=
  match Category.latest c with
  | .control | .format | .surrogate | .privateUse | .unassigned
  | .lineSeparator | .paragraphSeparator => false
  | .spaceSeparator => c == ' '
  | _ => !fillers.contains c

/-- `\u` and the code point in lower-case hexadecimal between braces. -/
def codePoint (c : Char) : String :=
  "\\u\x7b" ++ .ofList (Nat.toDigits 16 c.toNat) ++ "\x7d"

def escape (c : Char) : String :=
  match c with
  | '\t' => "\\t"
  | '\n' => "\\n"
  | '\r' => "\\r"
  | '\x00' => "\\0"
  | '"' => "\\\""
  | '\\' => "\\\\"
  | c =>
    if ' ' ≤ c && c ≤ '~' then c.toString
    else if extendsPrevious c || !hasShape c then codePoint c
    else c.toString

def quote (s : String) : String :=
  "\"" ++ String.join (s.toList.map escape) ++ "\""

end Cohort.Text.Quoted
