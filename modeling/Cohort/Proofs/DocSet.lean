import Mathlib.Data.Nat.Bitwise
import Cohort.DocSet
import Cohort.Proofs.Loops

/-!
# Document sets — membership bit by bit

`bit` reads the bit of a document, also past the length of a set, and `contains` only those below
it. `Sized` says that a set has as many words as its length needs, so that an inserted document is
found again. A set is `WellFormed` if moreover no bit past its length is set: then it has no member
that does not exist, and complements and joins have none either. `Comprises` says which documents a
set holds, with one rule for each way to make a set.
-/

namespace Cohort.DocSet

/-! ### Words -/

theorem toNat_mask (i : Nat) : (mask i).toNat = 2 ^ (i % 64) := by
  have hlt : i % 64 < 64 := Nat.mod_lt i (by decide)
  have hpow : 2 ^ (i % 64) < 2 ^ 64 := Nat.pow_lt_pow_right (by decide) hlt
  unfold mask
  rw [UInt64.toNat_shiftLeft]
  simpa [Nat.shiftLeft_eq] using hpow

theorem testWord_eq (w : UInt64) (i : Nat) : testWord w i = w.toNat.testBit (i % 64) := by
  have hand : (w &&& mask i).toNat = (w.toNat.testBit (i % 64)).toNat * 2 ^ (i % 64) := by
    rw [UInt64.toNat_and, toNat_mask, Nat.and_two_pow]
  unfold testWord
  cases hb : w.toNat.testBit (i % 64) with
  | false =>
    rw [hb] at hand
    have h0 : w &&& mask i = 0 := UInt64.toNat_inj.mp (by simpa using hand)
    simp [h0]
  | true =>
    rw [hb] at hand
    have hpos : 0 < 2 ^ (i % 64) := Nat.two_pow_pos _
    have h0 : w &&& mask i ≠ 0 := by
      intro h
      rw [h] at hand
      simp at hand
      omega
    simpa using h0

variable (w v : UInt64) (i j : Nat)

theorem testWord_or : testWord (w ||| v) i = (testWord w i || testWord v i) := by
  rw [testWord_eq, testWord_eq, testWord_eq, UInt64.toNat_or, Nat.testBit_or]

theorem testWord_and : testWord (w &&& v) i = (testWord w i && testWord v i) := by
  rw [testWord_eq, testWord_eq, testWord_eq, UInt64.toNat_and, Nat.testBit_and]

theorem testWord_mask : testWord (mask i) j = decide (i % 64 = j % 64) := by
  rw [testWord_eq, toNat_mask, Nat.testBit_two_pow]

theorem testWord_zero : testWord 0 i = false := by
  simp [testWord]

theorem testWord_not : testWord (~~~ w) i = !testWord w i := by
  have hlt : i % 64 < 64 := Nat.mod_lt i (by decide)
  have hnot : (~~~ w).toNat = 2 ^ 64 - (w.toNat + 1) := by
    rw [UInt64.toNat_not]
    have : UInt64.size = 2 ^ 64 := rfl
    omega
  rw [testWord_eq, testWord_eq, hnot, Nat.testBit_two_pow_sub_succ w.toNat_lt]
  simp [hlt]

/-- The bits below that of document `j`. -/
theorem testWord_mask_sub_one : testWord (mask j - 1) i = decide (i % 64 < j % 64) := by
  have hle : (1 : UInt64) ≤ mask j := by
    rw [UInt64.le_iff_toNat_le, toNat_mask]
    exact Nat.one_le_two_pow
  rw [testWord_eq, UInt64.toNat_sub_of_le _ _ hle, toNat_mask]
  exact Nat.testBit_two_pow_sub_one _ _

/-! ### Arrays of words -/

/-- The bit of a document. -/
def bitAt (words : Array UInt64) (i : Nat) : Bool := testWord (words.getD (i / 64) 0) i

theorem lt_wordCount {i len : Nat} (h : i < len) : i / 64 < wordCount len := by
  unfold wordCount
  omega

section Words

variable {words words' : Array UInt64} {w : UInt64} {i len : Nat}

theorem bitAt_of_getElem? (h : words[i / 64]? = some w) : bitAt words i = testWord w i := by
  unfold bitAt
  rw [Array.getD_eq_getD_getElem?, h, Option.getD_some]

theorem bitAt_of_size_le (h : words.size ≤ i / 64) : bitAt words i = false := by
  unfold bitAt
  rw [Array.getD_eq_getD_getElem?, Array.getElem?_eq_none h, Option.getD_none, testWord_zero]

theorem bitAt_replicate (n : Nat) (w : UInt64) (i : Nat) :
    bitAt (.replicate n w) i = (decide (i / 64 < n) && testWord w i) := by
  by_cases hi : i / 64 < n
  · rw [bitAt_of_getElem? (w := w) (by rw [Array.getElem?_replicate, if_pos hi]), decide_eq_true hi,
      Bool.true_and]
  · rw [bitAt_of_size_le (by rw [Array.size_replicate]; omega), decide_eq_false hi, Bool.false_and]

theorem bitAt_not (words : Array UInt64) (i : Nat) :
    bitAt (words.map (~~~ ·)) i = (decide (i / 64 < words.size) && !bitAt words i) := by
  by_cases hi : i / 64 < words.size
  · have hw := Array.getElem?_eq_getElem hi
    rw [bitAt_of_getElem? hw, bitAt_of_getElem? (by rw [Array.getElem?_map, hw]; rfl), testWord_not,
      decide_eq_true hi, Bool.true_and]
  · rw [bitAt_of_size_le (by rw [Array.size_map]; omega), decide_eq_false hi, Bool.false_and]

theorem bitAt_zipWith {f : UInt64 → UInt64 → UInt64} {op : Bool → Bool → Bool}
    (hf : ∀ w v i, testWord (f w v) i = op (testWord w i) (testWord v i))
    (hop : op false false = false) (hsize : words'.size = words.size) (i : Nat) :
    bitAt (words.zipWith f words') i = op (bitAt words i) (bitAt words' i) := by
  by_cases hi : i / 64 < words.size
  · have hw := Array.getElem?_eq_getElem hi
    have hw' := Array.getElem?_eq_getElem (hsize ▸ hi : i / 64 < words'.size)
    rw [bitAt_of_getElem? hw, bitAt_of_getElem? hw', ← hf]
    exact bitAt_of_getElem? (by rw [Array.getElem?_zipWith, hw, hw'])
  · have hle : words.size ≤ i / 64 := Nat.le_of_not_lt hi
    have hle' : words'.size ≤ i / 64 := hsize ▸ hle
    rw [bitAt_of_size_le hle, bitAt_of_size_le hle', hop,
      bitAt_of_size_le (by rw [Array.size_zipWith]; omega)]

/-- A change of one word is seen by its documents only. -/
theorem bitAt_modify (f : UInt64 → UInt64) (hword : i / 64 < words.size) (j : Nat) :
    bitAt (words.modify (i / 64) f) j =
      if i / 64 = j / 64 then testWord (f (words.getD (j / 64) 0)) j else bitAt words j := by
  unfold bitAt
  simp only [Array.getD_eq_getD_getElem?, Array.getElem?_modify]
  split_ifs with hw
  · rw [← hw, Array.getElem?_eq_getElem hword]
    rfl
  · rfl

theorem size_trimTail (len : Nat) (words : Array UInt64) :
    (trimTail len words).size = words.size := by
  unfold trimTail
  split_ifs <;> simp

/-- Exactly the bits past the length are cleared. -/
theorem bitAt_trimTail (hsize : words.size = wordCount len) (i : Nat) :
    bitAt (trimTail len words) i = (decide (i < len) && bitAt words i) := by
  unfold wordCount at hsize
  unfold trimTail
  split_ifs with hmod
  · by_cases hi : i < len
    · rw [decide_eq_true hi, Bool.true_and]
    · rw [decide_eq_false hi, Bool.false_and]
      exact bitAt_of_size_le (by omega)
  -- the word that is cut is the one of document `len`
  have hlast : words.size - 1 = len / 64 := by omega
  by_cases hlt : i / 64 < words.size
  · have hw := Array.getElem?_eq_getElem hlt
    by_cases hword : len / 64 = i / 64
    · have hcut : (words.modify (words.size - 1) (· &&& (mask len - 1)))[i / 64]? =
          some (words[i / 64] &&& (mask len - 1)) := by
        rw [Array.getElem?_modify, hlast, if_pos hword, hw]
        rfl
      have hpos : decide (i % 64 < len % 64) = decide (i < len) := by
        rw [decide_eq_decide]
        omega
      rw [bitAt_of_getElem? hcut, bitAt_of_getElem? hw, testWord_and, testWord_mask_sub_one, hpos,
        Bool.and_comm]
    · have hkept : (words.modify (words.size - 1) (· &&& (mask len - 1)))[i / 64]? =
          some words[i / 64] := by
        rw [Array.getElem?_modify, hlast, if_neg hword, hw]
      rw [bitAt_of_getElem? hkept, bitAt_of_getElem? hw, decide_eq_true (by omega), Bool.true_and]
  · have hle : words.size ≤ i / 64 := Nat.le_of_not_lt hlt
    rw [bitAt_of_size_le hle, Bool.and_false, bitAt_of_size_le (by rw [Array.size_modify]; omega)]

end Words

/-! ### Sets -/

variable {s t : DocSet} {i j : Nat}

/-- As many words as the length needs. -/
def Sized (s : DocSet) : Prop := s.words.size = wordCount s.len

/-- As many words as the length needs, and no bit past it. -/
structure WellFormed (s : DocSet) : Prop where
  sized : s.Sized
  lt_len : ∀ i, bitAt s.words i = true → i < s.len

theorem contains_eq (s : DocSet) (i : Nat) :
    s.contains i = (decide (i < s.len) && bitAt s.words i) := rfl

/-- Of a set without bits past its length, members are the bits that are set. -/
theorem WellFormed.contains_eq_bitAt (hs : s.WellFormed) (i : Nat) :
    s.contains i = bitAt s.words i := by
  rw [contains_eq]
  cases hbit : bitAt s.words i with
  | false => exact Bool.and_false _
  | true => rw [decide_eq_true (hs.lt_len i hbit), Bool.true_and]

/-- A set whose bits are cut off at its length. -/
theorem wellFormed_of_bitAt {b : Nat → Bool} (hs : s.Sized)
    (hb : ∀ i, bitAt s.words i = (decide (i < s.len) && b i)) :
    s.WellFormed ∧ ∀ i, s.contains i = (decide (i < s.len) && b i) := by
  refine ⟨⟨hs, fun i hi => ?_⟩, fun i => ?_⟩
  · rw [hb, Bool.and_eq_true, decide_eq_true_eq] at hi
    exact hi.1
  · rw [contains_eq, hb, ← Bool.and_assoc, Bool.and_self]

/-! ### Empty and full sets, complements -/

theorem sized_empty (len : Nat) : (empty len).Sized := by
  simp [Sized, empty]

theorem bitAt_empty (len i : Nat) : bitAt (empty len).words i = false := by
  show bitAt (.replicate _ 0) i = false
  rw [bitAt_replicate, testWord_zero, Bool.and_false]

theorem wellFormed_empty (len : Nat) : (empty len).WellFormed :=
  ⟨sized_empty len, fun i hi => by rw [bitAt_empty] at hi; cases hi⟩

theorem contains_empty (len i : Nat) : (empty len).contains i = false := by
  rw [contains_eq, bitAt_empty, Bool.and_false]

theorem bitAt_full (len i : Nat) : bitAt (full len).words i = (decide (i < len) && true) := by
  show bitAt (trimTail len (.replicate _ (~~~ 0))) i = _
  rw [bitAt_trimTail Array.size_replicate, bitAt_replicate, testWord_not, testWord_zero]
  by_cases hi : i < len
  · rw [decide_eq_true (lt_wordCount hi)]
    rfl
  · rw [decide_eq_false hi, Bool.false_and, Bool.false_and]

theorem sized_full (len : Nat) : (full len).Sized :=
  (size_trimTail len _).trans Array.size_replicate

theorem wellFormed_full (len : Nat) : (full len).WellFormed :=
  (wellFormed_of_bitAt (sized_full len) (bitAt_full len)).1

theorem contains_full (len i : Nat) : (full len).contains i = decide (i < len) :=
  ((wellFormed_of_bitAt (sized_full len) (bitAt_full len)).2 i).trans (Bool.and_true _)

theorem Sized.complement (hs : s.Sized) : s.complement.Sized :=
  (size_trimTail _ _).trans (Array.size_map.trans hs)

theorem bitAt_complement (hs : s.Sized) (i : Nat) :
    bitAt s.complement.words i = (decide (i < s.len) && !bitAt s.words i) := by
  show bitAt (trimTail s.len (s.words.map _)) i = _
  rw [bitAt_trimTail (Array.size_map.trans hs), bitAt_not, hs]
  by_cases hi : i < s.len
  · rw [decide_eq_true (lt_wordCount hi), Bool.true_and]
  · rw [decide_eq_false hi, Bool.false_and, Bool.false_and]

/-- A complement has no bit past the length, whatever the set had. -/
theorem Sized.wellFormed_complement (hs : s.Sized) : s.complement.WellFormed :=
  (wellFormed_of_bitAt hs.complement (bitAt_complement hs)).1

theorem WellFormed.contains_complement (hs : s.WellFormed) (i : Nat) :
    s.complement.contains i = (decide (i < s.len) && !s.contains i) := by
  rw [hs.contains_eq_bitAt]
  exact (wellFormed_of_bitAt hs.sized.complement (bitAt_complement hs.sized)).2 i

/-! ### Inserting a document -/

theorem insert?_eq_some (h : s.insert? i = some t) :
    i < s.len ∧ t = { s with words := s.words.modify (i / 64) (· ||| mask i) } := by
  unfold insert? at h
  split_ifs at h with hi
  exact ⟨hi, (Option.some.inj h).symm⟩

theorem len_insert? (h : s.insert? i = some t) : t.len = s.len := by
  rw [(insert?_eq_some h).2]

theorem exists_insert? (hi : i < s.len) : ∃ t, s.insert? i = some t :=
  ⟨_, if_pos hi⟩

theorem Sized.insert? (hs : s.Sized) (h : s.insert? i = some t) : t.Sized := by
  obtain ⟨-, rfl⟩ := insert?_eq_some h
  simpa [Sized] using hs

/-- Inserting a document sets its bit and no other. -/
theorem bitAt_insert? (hs : s.Sized) (h : s.insert? i = some t) (j : Nat) :
    bitAt t.words j = (bitAt s.words j || decide (j = i)) := by
  obtain ⟨hi, rfl⟩ := insert?_eq_some h
  rw [bitAt_modify _ (hs ▸ lt_wordCount hi)]
  split_ifs with hw
  · have hji : (i % 64 = j % 64) ↔ j = i := by omega
    rw [testWord_or, testWord_mask, decide_eq_decide.mpr hji]
    rfl
  · have hji : ¬ j = i := by
      rintro rfl
      exact hw rfl
    rw [decide_eq_false hji, Bool.or_false]

theorem contains_insert? (hs : s.Sized) (h : s.insert? i = some t) (j : Nat) :
    t.contains j = (s.contains j || decide (j = i)) := by
  have hbit := bitAt_insert? hs h j
  obtain ⟨hi, rfl⟩ := insert?_eq_some h
  rw [contains_eq, contains_eq, hbit]
  by_cases hji : j = i
  · simp [hji, hi]
  · simp [hji]

theorem WellFormed.insert? (hs : s.WellFormed) (h : s.insert? i = some t) : t.WellFormed := by
  refine ⟨hs.sized.insert? h, fun j hj => ?_⟩
  rw [bitAt_insert? hs.sized h, Bool.or_eq_true, decide_eq_true_eq] at hj
  rw [len_insert? h]
  rcases hj with hj | rfl
  · exact hs.lt_len j hj
  · exact (insert?_eq_some h).1

/-- Inserting says whether the document was there. -/
theorem insertNew?_eq (s : DocSet) (i : Nat) :
    s.insertNew? i = (s.insert? i).map fun t => (s.contains i, t) := rfl

/-! ### Erasing documents -/

theorem erase?_eq_some (h : s.erase? i = some t) :
    i < s.len ∧ t = { s with words := s.words.modify (i / 64) (· &&& ~~~ mask i) } := by
  unfold erase? at h
  split_ifs at h with hi
  exact ⟨hi, (Option.some.inj h).symm⟩

/-- Erasing a document clears its bit and no other. -/
theorem bitAt_erase? (hs : s.Sized) (h : s.erase? i = some t) (j : Nat) :
    bitAt t.words j = (bitAt s.words j && !decide (j = i)) := by
  obtain ⟨hi, rfl⟩ := erase?_eq_some h
  rw [bitAt_modify _ (hs ▸ lt_wordCount hi)]
  split_ifs with hw
  · have hji : (i % 64 = j % 64) ↔ j = i := by omega
    rw [testWord_and, testWord_not, testWord_mask, decide_eq_decide.mpr hji]
    rfl
  · have hji : ¬ j = i := by
      rintro rfl
      exact hw rfl
    rw [decide_eq_false hji, Bool.not_false, Bool.and_true]

theorem WellFormed.erase? (hs : s.WellFormed) (h : s.erase? i = some t) : t.WellFormed := by
  have hbit := bitAt_erase? hs.sized h
  obtain ⟨-, rfl⟩ := erase?_eq_some h
  refine ⟨?_, fun j hj => hs.lt_len j ?_⟩
  · simpa [Sized] using hs.sized
  · rw [hbit, Bool.and_eq_true] at hj
    exact hj.1

theorem bitAt_clear (s : DocSet) (i : Nat) : bitAt s.clear.words i = false := by
  show bitAt (s.words.map fun _ => 0) i = false
  unfold bitAt
  rw [Array.getD_eq_getD_getElem?, Array.getElem?_map]
  cases s.words[i / 64]? with
  | none => exact testWord_zero i
  | some w => exact testWord_zero i

theorem Sized.wellFormed_clear (hs : s.Sized) : s.clear.WellFormed :=
  ⟨Array.size_map.trans hs, fun i hi => by rw [bitAt_clear] at hi; cases hi⟩

/-! ### Sets of the documents with a property -/

/-- The set, over `n` documents, of those that satisfy `p`. -/
structure Comprises (s : DocSet) (n : Nat) (p : Nat → Bool) : Prop where
  len_eq : s.len = n
  wellFormed : s.WellFormed
  contains_eq : ∀ i < n, s.contains i = p i

section Comprises

variable {n : Nat} {p q : Nat → Bool}

theorem Comprises.congr (hs : s.Comprises n p) (h : ∀ i < n, p i = q i) : s.Comprises n q :=
  ⟨hs.len_eq, hs.wellFormed, fun i hi => (hs.contains_eq i hi).trans (h i hi)⟩

theorem comprises_empty (n : Nat) : (empty n).Comprises n fun _ => false :=
  ⟨rfl, wellFormed_empty n, fun i _ => contains_empty n i⟩

theorem comprises_full (n : Nat) : (full n).Comprises n fun _ => true :=
  ⟨rfl, wellFormed_full n, fun i hi => (contains_full n i).trans (decide_eq_true hi)⟩

theorem Comprises.complement (hs : s.Comprises n p) : s.complement.Comprises n fun i => !p i := by
  refine ⟨hs.len_eq, hs.wellFormed.sized.wellFormed_complement, fun i hi => ?_⟩
  rw [hs.wellFormed.contains_complement, hs.contains_eq i hi, hs.len_eq, decide_eq_true hi,
    Bool.true_and]

theorem Comprises.insert? (hs : s.Comprises n p) (h : s.insert? j = some t) :
    t.Comprises n fun i => p i || decide (i = j) := by
  refine ⟨(len_insert? h).trans hs.len_eq, hs.wellFormed.insert? h, fun i hi => ?_⟩
  rw [contains_insert? hs.wellFormed.sized h, hs.contains_eq i hi]

theorem Comprises.erase? (hs : s.Comprises n p) (h : s.erase? j = some t) :
    t.Comprises n fun i => p i && !decide (i = j) := by
  have ht := hs.wellFormed.erase? h
  have hbit := bitAt_erase? hs.wellFormed.sized h
  refine ⟨?_, ht, fun i hi => ?_⟩
  · rw [(erase?_eq_some h).2]
    exact hs.len_eq
  · rw [ht.contains_eq_bitAt, hbit, ← hs.wellFormed.contains_eq_bitAt, hs.contains_eq i hi]

theorem Comprises.clear (hs : s.Comprises n p) : s.clear.Comprises n fun _ => false := by
  have hclear := hs.wellFormed.sized.wellFormed_clear
  exact ⟨hs.len_eq, hclear, fun i _ => (hclear.contains_eq_bitAt i).trans (bitAt_clear s i)⟩

/-- A list of documents is the set of its entries, if all of them exist. -/
theorem comprises_ofList? {docs : List Nat} (h : ofList? docs n = some t) :
    t.Comprises n fun i => decide (i ∈ docs) := by
  refine foldlM_induct (fun done t => t.Comprises n fun i => decide (i ∈ done)) ?_ ?_ h
  · exact (comprises_empty n).congr fun i _ => by simp
  · intro done j rest u u' _ hu hj
    exact (hu.insert? hj).congr fun i _ => by simp

theorem exists_ofList? {docs : List Nat} (h : ∀ i ∈ docs, i < n) : ∃ t, ofList? docs n = some t := by
  obtain ⟨t, ht, -⟩ := exists_foldlM_of (fun t : DocSet => t.len = n)
    (show (empty n).len = n from rfl) fun i hi u hu => by
      obtain ⟨u', hu'⟩ := exists_insert? (hu ▸ h i hi : i < u.len)
      exact ⟨u', hu', (len_insert? hu').trans hu⟩
  exact ⟨t, ht⟩

/-- A document that does not exist refuses the whole list. -/
theorem ofList?_eq_none {docs : List Nat} (h : ¬ ∀ i ∈ docs, i < n) : ofList? docs n = none := by
  rw [Option.eq_none_iff_forall_ne_some]
  intro t ht
  refine h ?_
  have main : (∀ i ∈ docs, i < n) ∧ t.len = n := by
    refine foldlM_induct (fun done (t : DocSet) => (∀ i ∈ done, i < n) ∧ t.len = n)
      ⟨nofun, rfl⟩ ?_ ht
    rintro done j rest u u' - ⟨hdone, hlen⟩ hj
    refine ⟨fun i hi => ?_, (len_insert? hj).trans hlen⟩
    rcases List.mem_append.mp hi with hi | hi
    · exact hdone i hi
    · rw [List.mem_singleton.mp hi, ← hlen]
      exact (insert?_eq_some hj).1
  exact main.1

/-- Sets that are joined word by word are joined document by document. -/
theorem Comprises.zipWith {f : UInt64 → UInt64 → UInt64} {op : Bool → Bool → Bool}
    (hf : ∀ w v i, testWord (f w v) i = op (testWord w i) (testWord v i))
    (hop : op false false = false) (hs : s.Comprises n p) (ht : t.Comprises n q) :
    Comprises { s with words := s.words.zipWith f t.words } n fun i => op (p i) (q i) := by
  have hlen : t.len = s.len := ht.len_eq.trans hs.len_eq.symm
  have hsize : t.words.size = s.words.size := by
    rw [hs.wellFormed.sized, ht.wellFormed.sized, hlen]
  have hbit := bitAt_zipWith hf hop hsize
  have hwf : WellFormed { s with words := s.words.zipWith f t.words } := by
    refine ⟨?_, fun i hi => ?_⟩
    · show (s.words.zipWith f t.words).size = _
      rw [Array.size_zipWith, hsize, Nat.min_self, hs.wellFormed.sized]
    · -- one of the two bits is set, else the joined one would not be
      rw [hbit] at hi
      cases h1 : bitAt s.words i with
      | true => exact hs.wellFormed.lt_len i h1
      | false =>
        cases h2 : bitAt t.words i with
        | true => exact (ht.wellFormed.lt_len i h2).trans_eq hlen
        | false =>
          rw [h1, h2, hop] at hi
          cases hi
  refine ⟨hs.len_eq, hwf, fun i hi => ?_⟩
  rw [hwf.contains_eq_bitAt, hbit, ← hs.wellFormed.contains_eq_bitAt,
    ← ht.wellFormed.contains_eq_bitAt, hs.contains_eq i hi, ht.contains_eq i hi]

theorem Comprises.inter? (hs : s.Comprises n p) (ht : t.Comprises n q) :
    ∃ u, s.inter? t = some u ∧ u.Comprises n fun i => p i && q i :=
  ⟨_, if_pos (hs.len_eq.trans ht.len_eq.symm), hs.zipWith testWord_and rfl ht⟩

theorem Comprises.union? (hs : s.Comprises n p) (ht : t.Comprises n q) :
    ∃ u, s.union? t = some u ∧ u.Comprises n fun i => p i || q i :=
  ⟨_, if_pos (hs.len_eq.trans ht.len_eq.symm), hs.zipWith testWord_or rfl ht⟩

end Comprises

end Cohort.DocSet
