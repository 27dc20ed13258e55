import Cohort.Shard.Postings
import Cohort.Shard.Values
import Cohort.Word

/-!
# Shards: documents with integer and string fields

A document may hold any number of values in a field, also none. Integer and string fields live in
separate name spaces, each sorted by name. A field that does not exist has no terms.

· `addInt?` and `addString?` record one value of one document.
· `valueTable?` is the numeric view of an integer field: the largest value of each document, or 0.
-/

namespace Cohort

/-- Fields by name, strictly ascending. -/
abbrev FieldMap (τ : Type) := List (String × Postings τ)

namespace FieldMap

variable {τ : Type}

/-- Applies `f` to the postings of `name`, starting from no terms if the field is new. -/
def alter (name : String) (f : Postings τ → Postings τ) : FieldMap τ → FieldMap τ
  | [] => [(name, f .empty)]
  | (n, p) :: rest =>
    if name < n then (name, f .empty) :: (n, p) :: rest
    else if name = n then (n, f p) :: rest
    else (n, p) :: alter name f rest

def postings (m : FieldMap τ) (name : String) : Postings τ :=
  (m.lookup name).getD .empty

end FieldMap

structure Shard where
  numDocs : Nat
  ints : FieldMap Int
  strings : FieldMap String
  deriving Repr

namespace Shard

/-- A shard without fields. Document ids are 32-bit. -/
def empty? (numDocs : Nat) : Option Shard :=
  if numDocs ≤ maxId then some ⟨numDocs, [], []⟩ else none

/-- Registers an integer field, which may stay without values. -/
def withIntField (s : Shard) (field : String) : Shard :=
  { s with ints := s.ints.alter field id }

def withStringField (s : Shard) (field : String) : Shard :=
  { s with strings := s.strings.alter field id }

def addInt? (s : Shard) (field : String) (doc : Nat) (value : Int) : Option Shard :=
  if doc < s.numDocs then some { s with ints := s.ints.alter field (·.add value doc) } else none

def addString? (s : Shard) (field : String) (doc : Nat) (value : String) : Option Shard :=
  if doc < s.numDocs then some { s with strings := s.strings.alter field (·.add value doc) }
  else none

/-- One value per document, starting at document 0. -/
def addIntColumn? (s : Shard) (field : String) (values : List Int) : Option Shard :=
  values.zipIdx.foldlM (fun s (v, doc) => s.addInt? field doc v) (s.withIntField field)

def addStringColumn? (s : Shard) (field : String) (values : List String) : Option Shard :=
  values.zipIdx.foldlM (fun s (v, doc) => s.addString? field doc v) (s.withStringField field)

def intPostings (s : Shard) (field : String) : Postings Int := s.ints.postings field

def stringPostings (s : Shard) (field : String) : Postings String := s.strings.postings field

/-- The values of an integer field for one document, ascending. -/
def intValues (s : Shard) (field : String) (doc : Nat) : List Int :=
  (s.intPostings field).valuesOf doc

def stringValues (s : Shard) (field : String) (doc : Nat) : List String :=
  (s.stringPostings field).valuesOf doc

/-- Writes the terms in ascending order, so that the last write leaves the largest value. -/
def valueTable? (s : Shard) (field : String) : Option ValueTable :=
  (s.ints.lookup field).map fun p =>
    .dense <| p.entries.foldl
      (fun values (term, docs) => docs.foldl (fun vs doc => vs.setIfInBounds doc term) values)
      (.replicate s.numDocs 0)

def intDocFreq (s : Shard) (field : String) : Nat := (s.intPostings field).totalDocFreq

def stringDocFreq (s : Shard) (field : String) : Nat := (s.stringPostings field).totalDocFreq

end Shard

end Cohort
