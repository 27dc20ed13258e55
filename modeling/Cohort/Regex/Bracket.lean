import Cohort.Regex.Escape

/-!
# Bracketed classes

A class between brackets is a union of characters, ranges, escapes, named ASCII classes and classes
within it, or is built from such unions by the operators `&&`, `--` and `~~`, which bind equally
and to the left. A bracket or hyphen at the very start stands for itself.
-/

namespace Cohort.Regex

open Unicode (CharSet)

/-- A set and how deeply what it was written as is nested. -/
structure Nested where
  set : CharSet
  depth : Nat

namespace Nested

def ofSet (s : CharSet) : Nested := ⟨s, 0⟩

/-- The union of several items, the latest first. -/
def union : List Nested → Nested
  | [] => ofSet .empty
  | [item] => item
  | items => ⟨.unions (items.map (·.set)), (items.map (·.depth)).foldl max 0 + 1⟩

end Nested

inductive SetOp where
  | inter
  | diff
  | symmDiff
  deriving DecidableEq, Repr

def SetOp.apply : SetOp → CharSet → CharSet → CharSet
  | inter => CharSet.inter
  | diff => CharSet.diff
  | symmDiff => CharSet.symmDiff

/-- What waits for the class being read: an outer class, or the left side of an operator. -/
inductive ClassFrame where
  | outer (negated : Bool) (items : List Nested)
  | left (op : SetOp) (operand : Nested)

/-- Joins both sides of an operator. -/
def joinSides (o : Options) (op : SetOp) (l r : Nested) : Option Nested := do
  let a ← o.finishSet false l.set
  let b ← o.finishSet false r.set
  some ⟨op.apply a b, max l.depth r.depth + 1⟩

/-- Applies the operator that waits for `r`, if one does. -/
def closeOperator (o : Options) (r : Nested) :
    List ClassFrame → Option (Nested × List ClassFrame)
  | .left op l :: frames => (joinSides o op l r).map (·, frames)
  | frames => some (r, frames)

/-- Whether a caret follows. -/
def readCaret (o : Options) (cs : List Char) : Bool × List Char :=
  match o.skip cs with
  | '^' :: cs => (true, o.skip cs)
  | cs => (false, cs)

/-- Reads past an opening bracket: whether a caret follows, and the items that stand for
themselves. -/
def openClass (o : Options) : Reader (Bool × List Nested) := fun cs =>
  let (negated, cs) := readCaret o cs
  let (hyphens, cs) := o.span (· == '-') cs
  match hyphens, cs with
  | _, [] => none
  | [], ']' :: cs =>
    match o.skip cs with
    | [] => none
    | cs => some ((negated, [.ofSet (.single ']')]), cs)
  | hyphens, cs => some ((negated, hyphens.map fun c => .ofSet (.single c)), cs)

/-- The name of an ASCII class, with the colon and bracket behind it. -/
def readPosixName : Reader CharSet := fun cs =>
  match cs.dropWhile (· != ':') with
  | ':' :: ']' :: rest => (CharClass.posix? (.ofList (cs.takeWhile (· != ':')))).map (·, rest)
  | _ => none

/-- A named ASCII class as in `[:alpha:]`, and whether its opposite is meant. -/
def readPosix : Reader (Bool × CharSet)
  | ':' :: '^' :: cs => (readPosixName cs).map fun (s, rest) => ((true, s), rest)
  | ':' :: cs => (readPosixName cs).map fun (s, rest) => ((false, s), rest)
  | _ => none

/-- A character or an escape. -/
def readClassAtom (o : Options) : Reader Atom
  | [] => none
  | '\\' :: cs => readEscape o cs
  | c :: cs => some (.char c false, cs)

/-- The code point of an atom that is a character; only ASCII without the Unicode option. -/
def rangeEnd? (o : Options) : Atom → Option Nat
  | .char c _ => if o.unicode || c.toNat < 0x80 then some c.toNat else none
  | _ => none

/-- An atom as an item of a class, where assertions mean nothing. -/
def itemOfAtom? (o : Options) : Atom → Option CharSet
  | .set s => some s
  | .look _ => none
  | atom => (rangeEnd? o atom).map fun n => .range n n

/-- The character after a hyphen and what may be skipped there. A comment sign is passed, but not
the comment. -/
def peekPast (o : Options) (cs : List Char) : Option Char :=
  if o.verbose then
    match cs.dropWhile Unicode.isWhiteSpace with
    | '#' :: cs => (cs.dropWhile Unicode.isWhiteSpace).head?
    | cs => cs.head?
  else cs.head?

/-- The last character of a range that starts with `first`. -/
def readRangeEnd (o : Options) (first : Atom) : Reader CharSet := fun cs =>
  (readClassAtom o cs).bind fun (last, rest) =>
    (rangeEnd? o first).bind fun a => (rangeEnd? o last).bind fun b =>
      if a ≤ b then some (.range a b, rest) else none

/-- The item that an atom is, or that it starts if a hyphen follows. -/
def readItemFrom (o : Options) (first : Atom) : Reader CharSet := fun cs =>
  match o.skip cs with
  | [] => none
  | '-' :: after =>
    let next := peekPast o after
    if next = some ']' || next = some '-' then (itemOfAtom? o first).map (·, '-' :: after)
    else readRangeEnd o first (o.skip after)
  | cs => (itemOfAtom? o first).map (·, cs)

/-- An atom, or a range of two. -/
def readClassItem (o : Options) : Reader CharSet := fun cs =>
  (readClassAtom o cs).bind fun (first, rest) => readItemFrom o first rest

/-- What comes of a turn in a class: it goes on with items, the latest first, and what waits, or it
is closed. -/
inductive ClassTurn where
  | go (items : List Nested) (frames : List ClassFrame)
  | closed (whole : Nested)

/-- Reads an operator. -/
def turnOperator (o : Options) (op : SetOp) (items : List Nested) (frames : List ClassFrame) :
    Option ClassTurn :=
  (closeOperator o (.union items) frames).map fun (l, frames) => .go [] (.left op l :: frames)

/-- Reads a closing bracket. -/
def turnClose (o : Options) (items : List Nested) (frames : List ClassFrame) : Option ClassTurn :=
  (closeOperator o (.union items) frames).bind fun
    | (whole, .outer negated items :: frames) =>
      (o.finishSet negated whole.set).map fun s =>
        if frames.isEmpty then .closed ⟨s, whole.depth + 1⟩
        else .go (⟨s, whole.depth + 1⟩ :: items) frames
    | _ => none

/-- Reads the next item, operator or bracket of a class. A bracket that starts no named class opens
a class within. -/
def readClassTurn (o : Options) (items : List Nested) (frames : List ClassFrame) :
    Reader ClassTurn
  | [] => none
  | '[' :: cs =>
    match readPosix cs with
    | some ((negated, s), rest) =>
      (o.finishSet negated s).map fun s => (.go (.ofSet s :: items) frames, rest)
    | none => (openClass o cs).map fun ((negated, inner), rest) =>
      (.go inner (.outer negated items :: frames), rest)
  | ']' :: cs => (turnClose o items frames).map (·, cs)
  | '&' :: '&' :: cs => (turnOperator o .inter items frames).map (·, cs)
  | '-' :: '-' :: cs => (turnOperator o .diff items frames).map (·, cs)
  | '~' :: '~' :: cs => (turnOperator o .symmDiff items frames).map (·, cs)
  | cs => (readClassItem o cs).map fun (s, rest) => (.go (.ofSet s :: items) frames, rest)

/-- Reads on in a class until it is closed. Every turn takes a character, of which there are at most
`fuel`. -/
def readClassWithin (o : Options) : Nat → List Nested → List ClassFrame → Reader Nested
  | 0, _, _, _ => none
  | fuel + 1, items, frames, cs =>
    match readClassTurn o items frames (o.skip cs) with
    | none => none
    | some (.closed whole, rest) => some (whole, rest)
    | some (.go items frames, rest) => readClassWithin o fuel items frames rest

/-- A class, after its opening bracket. -/
def readClass (o : Options) : Reader Nested := fun cs =>
  (openClass o cs).bind fun ((negated, items), rest) =>
    readClassWithin o (rest.length + 1) items [.outer negated []] rest

end Cohort.Regex
