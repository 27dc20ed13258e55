import Cohort.Regex.Node

/-!
# Reduced forms of patterns

Before its automaton is built a pattern is reduced: neighbouring characters become one text, nested
sequences and alternatives become flat, alternatives of single characters become a set, a common
beginning of alternatives is drawn out, and loops around nothing run at most once. `Node.form` gives
the reduced form, which matches the same texts.
-/

namespace Cohort.Regex

open Unicode (CharSet)

inductive Form where
  | empty
  | text (cs : List Char)
  | set (s : CharSet)
  | look (l : Look)
  | rep (body : Form) (min : Nat) (max : Option Nat) (greedy : Bool)
  /-- A group that remembers what it takes. -/
  | group (body : Form)
  | seq (parts : List Form)
  | alt (branches : List Form)

namespace Form

/-- What never matches. -/
def fail : Form := set .empty

def ofSet (s : CharSet) : Form :=
  match s.only? with
  | some c => text [c]
  | none => set s

mutual

/-- Whether nothing but the empty text can match. -/
def isBlank : Form → Bool
  | empty | look _ => true
  | text _ | set _ => false
  | rep body _ _ _ => body.isBlank
  | group body => body.isBlank
  | seq parts => allBlank parts
  | alt branches => allBlank branches

def allBlank : List Form → Bool
  | [] => true
  | f :: fs => f.isBlank && allBlank fs

end

mutual

/-- How many characters a match has at least. Where a part never matches there is no such number. -/
def minLength? : Form → Option Nat
  | empty | look _ => some 0
  | text cs => some cs.length
  | set s => if s.isEmpty then none else some 1
  | rep body min _ _ => body.minLength?.map (min * ·)
  | group body => body.minLength?
  | seq parts => totalLength? parts
  | alt branches => leastLength? branches

def totalLength? : List Form → Option Nat
  | [] => some 0
  | f :: fs =>
    match f.minLength?, totalLength? fs with
    | some m, some n => some (m + n)
    | _, _ => none

def leastLength? : List Form → Option Nat
  | [] => none
  | [f] => f.minLength?
  | f :: fs =>
    match f.minLength?, leastLength? fs with
    | some m, some n => some (min m n)
    | _, _ => none

end

/-- Whether every match takes something. -/
def takesSome (f : Form) : Bool := f.minLength?.any (0 < ·)

mutual

/-- Whether every match starts at the start of the text, as far as its leading assertions tell. -/
def anchoredStart : Form → Bool
  | look l => l == .textStart
  | rep body min _ _ => 0 < min && body.anchoredStart
  | group body => body.anchoredStart
  | seq parts => startAmong parts
  | alt branches => allAnchoredStart branches
  | _ => false

def startAmong : List Form → Bool
  | [] => false
  | f :: fs => f.anchoredStart || (f.isBlank && startAmong fs)

def allAnchoredStart : List Form → Bool
  | [] => true
  | f :: fs => f.anchoredStart && allAnchoredStart fs

end

mutual

/-- Whether every match stops at the end of the text, as far as its trailing assertions tell. -/
def anchoredEnd : Form → Bool
  | look l => l == .textEnd
  | rep body min _ _ => 0 < min && body.anchoredEnd
  | group body => body.anchoredEnd
  | seq parts => endAmong parts
  | alt branches => allAnchoredEnd branches
  | _ => false

def endAmong : List Form → Bool
  | [] => false
  | f :: fs => endAmong fs || (allBlank fs && f.anchoredEnd)

def allAnchoredEnd : List Form → Bool
  | [] => true
  | f :: fs => f.anchoredEnd && allAnchoredEnd fs

end

mutual

/-- Whether two forms are the same; a group is the same as no other. -/
def same : Form → Form → Bool
  | empty, empty => true
  | text cs, text ds => cs == ds
  | set s, set t => s == t
  | look l, look m => l == m
  | rep a min max greedy, rep b min' max' greedy' =>
    min == min' && max == max' && greedy == greedy' && same a b
  | seq as, seq bs => allSame as bs
  | alt as, alt bs => allSame as bs
  | _, _ => false

def allSame : List Form → List Form → Bool
  | [], [] => true
  | a :: as, b :: bs => same a b && allSame as bs
  | _, _ => false

end

mutual

/-- How many forms there are within, the form itself among them. -/
def weight : Form → Nat
  | rep body _ _ _ => body.weight + 1
  | group body => body.weight + 1
  | seq parts => totalWeight parts + 1
  | alt branches => totalWeight branches + 1
  | _ => 1

def totalWeight : List Form → Nat
  | [] => 0
  | f :: fs => f.weight + totalWeight fs

end

/-- The parts of a sequence, or the form as the only part. -/
def parts : Form → List Form
  | empty => []
  | seq ps => ps
  | f => [f]

/-- Puts a part in front of others, joining texts. -/
def consPart : Form → List Form → List Form
  | text cs, text ds :: rest => text (cs ++ ds) :: rest
  | f, rest => f :: rest

def ofParts : List Form → Form
  | [] => empty
  | [f] => f
  | ps => seq ps

/-- One after the other. -/
def append (f g : Form) : Form := ofParts (f.parts.foldr consPart g.parts)

/-- The character of a text of one. -/
def char? : Form → Option Char
  | text [c] => some c
  | _ => none

def set? : Form → Option CharSet
  | set s => some s
  | _ => none

/-- The parts of a sequence. -/
def sequence? : Form → Option (List Form)
  | seq ps => some ps
  | _ => none

/-- The parts that two lists have in common at the start. -/
def commonParts : List Form → List Form → List Form
  | a :: as, b :: bs => if same a b then a :: commonParts as bs else []
  | _, _ => []

/-- The beginning that all branches share, if they are sequences. -/
def commonStart (branches : List Form) : List Form :=
  match branches.mapM sequence? with
  | some (first :: others) => others.foldl commonParts first
  | _ => []

/-- The branches of alternatives, or the form as the only branch. -/
def branches : Form → List Form
  | alt fs => fs
  | f => [f]

/-- One of several, reduced. A common beginning is drawn out at most `fuel` times. -/
def anyOfWithin : Nat → List Form → Form
  | 0, fs => alt fs
  | fuel + 1, fs =>
    match fs.flatMap branches with
    | [] => fail
    | [f] => f
    | fs =>
      match fs.mapM char?, fs.mapM set? with
      | some cs, _ => ofSet (.ofChars cs)
      | none, some sets => ofSet (.unions sets)
      | none, none =>
        match commonStart fs with
        | [] => alt fs
        | start =>
          let ends := fs.map fun f => ofParts (f.parts.drop start.length)
          (ofParts start).append (anyOfWithin fuel ends)

/-- One of several. What is drawn out of the branches makes them lighter. -/
def anyOf : List Form → Form
  | [f] => f
  | fs => anyOfWithin (totalWeight fs + 1) fs

/-- A loop. What takes nothing is run at most once. -/
def loop (body : Form) (min : Nat) (max : Option Nat) (greedy : Bool) : Form :=
  let (min, max) :=
    if body.isBlank then (Nat.min min 1, some (Nat.min (max.getD 1) 1)) else (min, max)
  if max = some 0 then empty
  else if min = 1 ∧ max = some 1 then body
  else rep body min max greedy

end Form

/-- The alternatives of a pattern in reduced form. -/
def Node.branches : Node → List Form
  | empty => [.empty]
  | set s => [.ofSet s]
  | look l => [.look l]
  | seq a b => [(Form.anyOf a.branches).append (Form.anyOf b.branches)]
  | alt a b => a.branches ++ b.branches
  | rep body min max greedy => [(Form.anyOf body.branches).loop min max greedy]
  | group remembers body =>
    let f := Form.anyOf body.branches
    [if remembers then .group f else f]

/-- The reduced form of a pattern. -/
def Node.form (n : Node) : Form := Form.anyOf n.branches

end Cohort.Regex
