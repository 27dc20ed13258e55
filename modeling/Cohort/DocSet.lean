/-!
# Document sets: bit sets over the documents `0 .. len - 1`

Document `i` is bit `i % 64` of word `i / 64`. The bits of the last word past `len` stay zero, so
that counting and complementing whole words never meets a document that does not exist.

Operations that name a document outside the set, or join sets of different length, give `none`.
-/

namespace Cohort

structure DocSet where
  len : Nat
  words : Array UInt64
  deriving DecidableEq, Repr

namespace DocSet

def wordCount (len : Nat) : Nat := (len + 63) / 64

/-- Bytes that the words of a set of `len` documents take. -/
def bytesFor (len : Nat) : Nat := wordCount len * 8

/-- The word with only bit `i` set. -/
def mask (i : Nat) : UInt64 := 1 <<< (i % 64).toUInt64

def testWord (w : UInt64) (i : Nat) : Bool := w &&& mask i != 0

/-- Clears the bits of the last word past `len`. -/
def trimTail (len : Nat) (words : Array UInt64) : Array UInt64 :=
  if len % 64 = 0 then words
  else words.modify (words.size - 1) (· &&& (mask len - 1))

/-- The set without members. -/
def empty (len : Nat) : DocSet := ⟨len, .replicate (wordCount len) 0⟩

/-- The set of all documents. -/
def full (len : Nat) : DocSet :=
  ⟨len, trimTail len (.replicate (wordCount len) (~~~ 0))⟩

def isEmpty (s : DocSet) : Bool := s.len == 0

def contains (s : DocSet) (i : Nat) : Bool :=
  i < s.len && testWord (s.words.getD (i / 64) 0) i

def insert? (s : DocSet) (i : Nat) : Option DocSet :=
  if i < s.len then some { s with words := s.words.modify (i / 64) (· ||| mask i) } else none

/-- Inserts `i` and says whether it was there before. -/
def insertNew? (s : DocSet) (i : Nat) : Option (Bool × DocSet) :=
  (s.insert? i).map fun t => (s.contains i, t)

def erase? (s : DocSet) (i : Nat) : Option DocSet :=
  if i < s.len then some { s with words := s.words.modify (i / 64) (· &&& ~~~ mask i) } else none

def ofList? (docs : List Nat) (len : Nat) : Option DocSet :=
  docs.foldlM insert? (empty len)

def clear (s : DocSet) : DocSet := { s with words := s.words.map fun _ => 0 }

def complement (s : DocSet) : DocSet :=
  { s with words := trimTail s.len (s.words.map (~~~ ·)) }

def inter? (s t : DocSet) : Option DocSet :=
  if s.len = t.len then some { s with words := s.words.zipWith (· &&& ·) t.words } else none

def union? (s t : DocSet) : Option DocSet :=
  if s.len = t.len then some { s with words := s.words.zipWith (· ||| ·) t.words } else none

/-- The bits set in a word, ascending. -/
def wordBits (w : UInt64) : List Nat :=
  if w == 0 then [] else (List.range 64).filter (testWord w)

/-- How many bits stand below the lowest one that is set: 64 of the word without any. -/
def trailingZeros (w : UInt64) : Nat := (List.range 64).findIdx (testWord w)

/-- Takes the lowest bit off. -/
def dropLowest (w : UInt64) : UInt64 := w &&& (w - 1)

theorem toNat_dropLowest_lt {w : UInt64} (h : w ≠ 0) : (dropLowest w).toNat < w.toNat := by
  have hpos : 0 < w.toNat := by
    rw [Nat.pos_iff_ne_zero]
    exact fun h0 => h (UInt64.toNat_inj.mp h0)
  have hle : (1 : UInt64) ≤ w := UInt64.le_iff_toNat_le.mpr hpos
  have hsub : (w - 1).toNat = w.toNat - 1 := UInt64.toNat_sub_of_le _ _ hle
  have hand : (dropLowest w).toNat ≤ (w - 1).toNat := by
    unfold dropLowest
    rw [UInt64.toNat_and]
    exact Nat.and_le_right
  omega

/-- A walk over the members: the bits left of the word at hand, the document of its lowest place, the
document of the next word's lowest place, and the words to come. -/
structure Walk where
  current : UInt64
  base : Nat
  nextBase : Nat
  words : List UInt64

namespace Walk

/-- The next member, with the walk behind it. Words without members are passed over. -/
def next? : Walk → Option (Nat × Walk)
  | ⟨current, base, nextBase, words⟩ =>
    if current ≠ 0 then
      some (base + trailingZeros current, ⟨dropLowest current, base, nextBase, words⟩)
    else match words with
      | [] => none
      | w :: ws => next? ⟨w, nextBase, nextBase + 64, ws⟩
termination_by t => t.words.length

/-- What a step of a walk makes smaller. -/
def left (t : Walk) : Nat := t.words.length * UInt64.size + t.current.toNat

theorem left_next?_lt {t t' : Walk} {doc : Nat} (h : t.next? = some (doc, t')) :
    t'.left < t.left := by
  fun_induction next? t with
  | case1 current base nextBase words hc =>
    cases h
    exact Nat.add_lt_add_left (toNat_dropLowest_lt hc) _
  | case2 => cases h
  | case3 current base nextBase hc w ws ih =>
    have hw : w.toNat < UInt64.size := w.toNat_lt
    have hstep : (ws.length + 1) * UInt64.size = ws.length * UInt64.size + UInt64.size :=
      Nat.succ_mul _ _
    calc t'.left < ws.length * UInt64.size + w.toNat := ih h
      _ < ws.length * UInt64.size + UInt64.size := Nat.add_lt_add_left hw _
      _ = (ws.length + 1) * UInt64.size := hstep.symm
      _ ≤ _ := Nat.le_add_right _ _

/-- The members that a walk still meets, in its order. -/
def toList (t : Walk) : List Nat :=
  match t.next?.attach with
  | none => []
  | some ⟨(doc, rest), _⟩ => doc :: rest.toList
termination_by t.left
decreasing_by exact left_next?_lt ‹_›

end Walk

/-- A walk from the first word on. -/
def walk (s : DocSet) : Walk := ⟨0, 0, 0, s.words.toList⟩

/-- Members in ascending order. -/
def toList (s : DocSet) : List Nat := s.walk.toList

/-- Number of members. -/
def card (s : DocSet) : Nat :=
  s.words.foldl (fun n w => n + (wordBits w).length) 0

/-- Number of documents that are not members. -/
def cocard (s : DocSet) : Nat := s.len - s.card

end DocSet

end Cohort
