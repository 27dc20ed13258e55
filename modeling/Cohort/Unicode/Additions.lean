import Cohort.Unicode.Property

/-!
# Characters of Unicode 17

The tables of categories and properties stop at Unicode 16. `additions` lists the characters that
came with Unicode 17, by stretches of one category, and the one that changed its category.
`Category.latest` and `isAlphabetic` know them too.
-/

namespace Cohort.Unicode

structure Addition where
  first : Nat
  last : Nat
  category : Category
  deriving DecidableEq, Repr

def additions : List Addition :=
  [⟨0x295, 0x295, .otherLetter⟩, ⟨0x88f, 0x88f, .otherLetter⟩, ⟨0xc5c, 0xc5c, .otherLetter⟩,
   ⟨0xcdc, 0xcdc, .otherLetter⟩,
   ⟨0x1acf, 0x1add, .nonspacingMark⟩, ⟨0x1ae0, 0x1aeb, .nonspacingMark⟩,
   ⟨0x20c1, 0x20c1, .currencySymbol⟩, ⟨0x2b96, 0x2b96, .otherSymbol⟩,
   ⟨0xa7ce, 0xa7ce, .uppercaseLetter⟩, ⟨0xa7cf, 0xa7cf, .lowercaseLetter⟩,
   ⟨0xa7d2, 0xa7d2, .uppercaseLetter⟩, ⟨0xa7d4, 0xa7d4, .uppercaseLetter⟩,
   ⟨0xa7f1, 0xa7f1, .modifierLetter⟩, ⟨0xfbc3, 0xfbd2, .otherSymbol⟩,
   ⟨0xfd90, 0xfd91, .otherSymbol⟩, ⟨0xfdc8, 0xfdce, .otherSymbol⟩,
   ⟨0x10940, 0x10959, .otherLetter⟩, ⟨0x10ec5, 0x10ec5, .modifierLetter⟩,
   ⟨0x10ec6, 0x10ec7, .otherLetter⟩, ⟨0x10ed0, 0x10ed0, .otherPunctuation⟩,
   ⟨0x10ed1, 0x10ed8, .otherSymbol⟩, ⟨0x10efa, 0x10efb, .nonspacingMark⟩,
   ⟨0x11b60, 0x11b60, .nonspacingMark⟩, ⟨0x11b61, 0x11b61, .spacingMark⟩,
   ⟨0x11b62, 0x11b64, .nonspacingMark⟩, ⟨0x11b65, 0x11b65, .spacingMark⟩,
   ⟨0x11b66, 0x11b66, .nonspacingMark⟩, ⟨0x11b67, 0x11b67, .spacingMark⟩,
   ⟨0x11db0, 0x11dd8, .otherLetter⟩, ⟨0x11dd9, 0x11dd9, .modifierLetter⟩,
   ⟨0x11dda, 0x11ddb, .otherLetter⟩, ⟨0x11de0, 0x11de9, .decimalNumber⟩,
   ⟨0x16ea0, 0x16eb8, .uppercaseLetter⟩, ⟨0x16ebb, 0x16ed3, .lowercaseLetter⟩,
   ⟨0x16ff2, 0x16ff3, .modifierLetter⟩, ⟨0x16ff4, 0x16ff6, .letterNumber⟩,
   ⟨0x187f8, 0x187ff, .otherLetter⟩, ⟨0x18d09, 0x18d1e, .otherLetter⟩,
   ⟨0x18d80, 0x18df2, .otherLetter⟩, ⟨0x1ccfa, 0x1ccfc, .otherSymbol⟩,
   ⟨0x1ceba, 0x1ced0, .otherSymbol⟩, ⟨0x1cee0, 0x1ceef, .otherSymbol⟩,
   ⟨0x1cef0, 0x1cef0, .mathSymbol⟩, ⟨0x1e6c0, 0x1e6de, .otherLetter⟩,
   ⟨0x1e6e0, 0x1e6e2, .otherLetter⟩, ⟨0x1e6e3, 0x1e6e3, .nonspacingMark⟩,
   ⟨0x1e6e4, 0x1e6e5, .otherLetter⟩, ⟨0x1e6e6, 0x1e6e6, .nonspacingMark⟩,
   ⟨0x1e6e7, 0x1e6ed, .otherLetter⟩, ⟨0x1e6ee, 0x1e6ef, .nonspacingMark⟩,
   ⟨0x1e6f0, 0x1e6f4, .otherLetter⟩, ⟨0x1e6f5, 0x1e6f5, .nonspacingMark⟩,
   ⟨0x1e6fe, 0x1e6fe, .otherLetter⟩, ⟨0x1e6ff, 0x1e6ff, .modifierLetter⟩,
   ⟨0x1f6d8, 0x1f6d8, .otherSymbol⟩, ⟨0x1f777, 0x1f77a, .otherSymbol⟩,
   ⟨0x1f8d0, 0x1f8d8, .mathSymbol⟩, ⟨0x1fa54, 0x1fa57, .otherSymbol⟩,
   ⟨0x1fa8a, 0x1fa8a, .otherSymbol⟩, ⟨0x1fa8e, 0x1fa8e, .otherSymbol⟩,
   ⟨0x1fac8, 0x1fac8, .otherSymbol⟩, ⟨0x1facd, 0x1facd, .otherSymbol⟩,
   ⟨0x1faea, 0x1faea, .otherSymbol⟩, ⟨0x1faef, 0x1faef, .otherSymbol⟩,
   ⟨0x1fbfa, 0x1fbfa, .otherSymbol⟩, ⟨0x2b73a, 0x2b73f, .otherLetter⟩,
   ⟨0x2cea2, 0x2cead, .otherLetter⟩, ⟨0x323b0, 0x33479, .otherLetter⟩]

/-- The addition that a character is part of. -/
def addition? (c : Char) : Option Addition :=
  additions.find? fun a => a.first ≤ c.toNat && c.toNat ≤ a.last

/-- The general category of `c` in Unicode 17. -/
def Category.latest (c : Char) : Category :=
  match addition? c with
  | some a => a.category
  | none => Category.of c

/-- Whether the characters of an addition are alphabetic: letters, and the vowel signs among the
marks, which all but the combining diacritics are. -/
def Addition.isAlphabetic (a : Addition) : Bool :=
  match a.category with
  | .uppercaseLetter | .lowercaseLetter | .modifierLetter | .otherLetter | .letterNumber
  | .spacingMark => true
  | .nonspacingMark => 0x1aeb < a.first
  | _ => false

/-- Whether `c` is alphabetic in Unicode 17. -/
def isAlphabetic (c : Char) : Bool :=
  match addition? c with
  | some a => a.isAlphabetic
  | none => Property.alphabetic.holds c

end Cohort.Unicode
