import Cohort.Chunk
import Cohort.DocSet
import Cohort.Rule.Basic
import Cohort.Shard.Values
import Cohort.Word

/-!
# Groupings: which group every document is in

A grouping that puts all documents in one group stores nothing per document. Any other keeps one
word per document, of the narrowest width that holds its capacity: the largest group that somebody
announced to write. Group 0 holds the documents that are filtered out.

Operations give `none` where a document does not exist, a group does not fit the width, or a
constant grouping would have to change.
-/

namespace Cohort

/-- Width of a stored group id. -/
inductive Width where
  | byte
  | short
  | long
  deriving DecidableEq, Repr

namespace Width

def bytes : Width → Nat
  | byte => 1
  | short => 2
  | long => 4

/-- Largest group that a word holds. -/
def maxGroup : Width → Nat
  | byte => 255
  | short => 65535
  | long => maxId

/-- The narrowest width that holds `group`. -/
def fitting (group : Nat) : Width :=
  if group ≤ byte.maxGroup then byte else if group ≤ short.maxGroup then short else long

def name : Width → String
  | byte => "u8"
  | short => "u16"
  | long => "u32"

end Width

/-- One stored group per document. -/
structure StoredGroups where
  width : Width
  capacity : Nat
  /-- One more than the largest group, as of the last recount. -/
  numGroups : Nat
  groups : Array Nat
  deriving DecidableEq, Repr

inductive Grouping where
  | constant (group len : Nat)
  | stored (words : StoredGroups)
  deriving DecidableEq, Repr

namespace StoredGroups

def bytesFor (width : Width) (numDocs : Nat) : Nat := numDocs * width.bytes

def bytes (s : StoredGroups) : Nat := bytesFor s.width s.groups.size

/-- Every document in group 0, with room for `maxGroup`. -/
def blank (maxGroup numDocs : Nat) : StoredGroups :=
  ⟨.fitting maxGroup, maxGroup, 1, .replicate numDocs 0⟩

def set? (s : StoredGroups) (doc group : Nat) : Option StoredGroups :=
  if doc < s.groups.size && group ≤ s.width.maxGroup then
    some { s with groups := s.groups.setIfInBounds doc group }
  else none

end StoredGroups

namespace Grouping

def len : Grouping → Nat
  | constant _ len => len
  | stored s => s.groups.size

def isConstant : Grouping → Bool
  | constant .. => true
  | stored _ => false

/-- One more than the largest group. -/
def numGroups : Grouping → Nat
  | constant group _ => group + 1
  | stored s => s.numGroups

/-- The number of groups, which must be a group id itself. -/
def count? : Grouping → Option Nat
  | constant group _ => asId? (group + 1)
  | stored s => some s.numGroups

/-- Largest group that can be written without growing. -/
def capacity : Grouping → Nat
  | constant group _ => group
  | stored s => s.capacity

/-- Bytes of storage per document. -/
def bytes : Grouping → Nat
  | constant .. => 0
  | stored s => s.bytes

def widthName : Grouping → String
  | constant .. => "constant"
  | stored s => s.width.name

def get? : Grouping → Nat → Option Nat
  | constant group len, doc => if doc < len then some group else none
  | stored s, doc => s.groups[doc]?

/-- The group of every document in order. -/
def toList : Grouping → List Nat
  | constant group len => List.replicate len group
  | stored s => s.groups.toList

/-- A write to a constant grouping changes nothing. -/
def set? : Grouping → Nat → Nat → Option Grouping
  | constant group len, _, g => if g = group then some (constant group len) else none
  | stored s, doc, g => (s.set? doc g).map stored

/-- The groups of `docs`, in their order. -/
def groupsOf? : Grouping → List Nat → Option (List Nat)
  | constant group _, docs => some (List.replicate docs.length group)
  | stored s, docs => docs.mapM (s.groups[·]?)

/-- Writes `groups` to `docs` one by one. -/
def setAll? : Grouping → List Nat → List Nat → Option Grouping
  | constant group len, _, groups =>
    if groups.all (· == group) then some (constant group len) else none
  | stored s, docs, groups =>
    ((docs.zip groups).foldlM (fun (s : StoredGroups) (doc, g) => s.set? doc g) s).map stored

/-- The groups of `count` documents from `start` on. -/
def slice? : Grouping → Nat → Nat → Option (List Nat)
  | constant group _, _, count => some (List.replicate count group)
  | stored s, start, count =>
    if start + count ≤ s.groups.size then (stored s).groupsOf? (List.range' start count) else none

/-- Writes `groups` to the documents from `start` on. -/
def setSlice? : Grouping → Nat → List Nat → Option Grouping
  | constant group len, start, groups =>
    (constant group len).setAll? (List.range' start groups.length) groups
  | stored s, start, groups =>
    if start + groups.length ≤ s.groups.size then
      (stored s).setAll? (List.range' start groups.length) groups
    else none

/-- Recomputes the number of groups, which must be a group id itself. -/
def recount? : Grouping → Option Grouping
  | constant group len => if group < maxId then some (constant group len) else none
  | stored s =>
    let highest := s.groups.foldl max 0
    if highest < maxId then some (stored { s with numGroups := highest + 1 }) else none

/-- Moves every document, a chunk at a time: `f doc group` is its new group. -/
def mapGroups? (g : Grouping) (chunk : Nat) (f : Nat → Nat → Option Nat) : Option Grouping :=
  (chunks (max 1 chunk) (List.range g.len)).foldlM (fun g docs => do
    let groups ← g.groupsOf? docs
    let written ← (docs.zip groups).mapM fun (doc, group) => f doc group
    g.setAll? docs written) g

/-- Moves every document by its group and its value, a chunk at a time. -/
def mapGroupsWithValues? (g : Grouping) (chunk : Nat) (values : ValueTable)
    (f : Nat → Int → Option Nat) : Option Grouping :=
  (chunks (max 1 chunk) (List.range g.len)).foldlM (fun g docs => do
    let groups ← g.groupsOf? docs
    let values ← values.valuesOf? docs
    let written ← (groups.zip values).mapM fun (group, value) => f group value
    g.setAll? docs written) g

/-- Sends every document of the target to one side or the other of `docs`. -/
def splitBy? (g : Grouping) (docs : DocSet) (split : Split) : Option Grouping :=
  (List.range (g.len % halfWordBound)).foldlM (fun g doc => do
    let group ← g.get? doc
    if group = split.target then
      g.set? doc (if docs.contains doc then split.positive else split.negative)
    else some g) g

/-- Number of documents in `group`. -/
def countGroup : Grouping → Nat → Nat
  | constant g len, group => if g = group then len else 0
  | stored s, group => s.groups.foldl (fun n g => if g = group then n + 1 else n) 0

/-- Number of documents of each group below `numGroups`. -/
def groupDocCounts (g : Grouping) : List Nat :=
  match g with
  | constant group len => List.replicate group 0 ++ [len]
  | stored s =>
    (s.groups.foldl (fun counts g => counts.modify g (· + 1))
      (Array.replicate s.numGroups 0)).toList

/-- A one-line description without the groups themselves. -/
def summary (g : Grouping) : String :=
  let width := g.widthName
  let len := g.len
  let numGroups := g.numGroups
  s!"GroupLookup \x7b repr: \"{width}\", len: {len}, num_groups: {numGroups} \x7d"

/-- Whether `maxGroup` fits without a wider array. -/
def fits : Grouping → Nat → Bool
  | constant .., _ => false
  | stored s, maxGroup => maxGroup ≤ s.width.maxGroup

/-- Takes over the number of groups of another grouping. -/
def withCount : Grouping → Nat → Grouping
  | constant group len, _ => constant group len
  | stored s, numGroups => stored { s with numGroups }

/-- Notes that `maxGroup` may be written. -/
def announce : Grouping → Nat → Grouping
  | constant group len, _ => constant group len
  | stored s, maxGroup => stored { s with capacity := max s.capacity maxGroup }

/-- The documents that are written into wider words, in order. Blank words are in group 0 already,
and the number of a document is cut to 32 bits. -/
def copied : Grouping → List Nat
  | constant group len => if group = 0 then [] else List.range (len % halfWordBound)
  | stored s => (List.range s.groups.size).map (· % halfWordBound)

/-- The groups in storage of their own, with room for `maxGroup`, document by document. -/
def widen? (g : Grouping) (maxGroup : Nat) : Option Grouping := do
  let wider ← (stored (.blank (max maxGroup g.capacity) g.len)).setAll? g.copied g.toList
  return wider.withCount (← g.count?)

/-- Bytes that `widen?` needs. -/
def widenedBytes (g : Grouping) (maxGroup : Nat) : Nat :=
  StoredGroups.bytesFor (.fitting (max maxGroup g.capacity)) g.len

end Grouping

end Cohort
