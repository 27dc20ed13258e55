import Cohort.Unicode.Folding
import Cohort.Unicode.Property

/-!
# Classes with a letter or a name

`digit`, `space` and `word` are the classes behind `\d`, `\s` and `\w`, and `posix?` gives the ones
behind `[:alpha:]` and the like.
-/

namespace Cohort.Regex.CharClass

open Unicode (CharSet Category Property)

def ofPairs (pairs : List (Char × Char)) : CharSet :=
  .ofRanges (pairs.map fun (first, last) => (first.toNat, last.toNat))

def asciiDigit : CharSet := ofPairs [('0', '9')]

def asciiSpace : CharSet := ofPairs [('\t', '\r'), (' ', ' ')]

def asciiWord : CharSet := ofPairs [('0', '9'), ('A', 'Z'), ('_', '_'), ('a', 'z')]

def digit : CharSet := Category.set [.decimalNumber]

def space : CharSet := Property.whiteSpace.set

/-- Letters, marks, digits, connectors such as the underscore, and joiners. -/
def word : CharSet :=
  .unions [Property.alphabetic.set, Property.joinControl.set,
    Category.set [.nonspacingMark, .spacingMark, .enclosingMark, .decimalNumber,
      .connectorPunctuation]]

/-- The ASCII class of a name. -/
def posix? : String → Option CharSet
  | "alnum" => some (ofPairs [('0', '9'), ('A', 'Z'), ('a', 'z')])
  | "alpha" => some (ofPairs [('A', 'Z'), ('a', 'z')])
  | "ascii" => some (ofPairs [('\x00', '\x7f')])
  | "blank" => some (ofPairs [('\t', '\t'), (' ', ' ')])
  | "cntrl" => some (ofPairs [('\x00', '\x1f'), ('\x7f', '\x7f')])
  | "digit" => some asciiDigit
  | "graph" => some (ofPairs [('!', '~')])
  | "lower" => some (ofPairs [('a', 'z')])
  | "print" => some (ofPairs [(' ', '~')])
  | "punct" => some (ofPairs [('!', '/'), (':', '@'), ('[', '\x60'), ('\x7b', '~')])
  | "space" => some asciiSpace
  | "upper" => some (ofPairs [('A', 'Z')])
  | "word" => some asciiWord
  | "xdigit" => some (ofPairs [('0', '9'), ('A', 'F'), ('a', 'f')])
  | _ => none

end Cohort.Regex.CharClass
