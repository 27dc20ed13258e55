import Mathlib.Algebra.BigOperators.Group.List.Lemmas
import Mathlib.Algebra.GroupWithZero.Nat
import Mathlib.Data.List.Sort
import Cohort.Proofs.DocSet

/-!
# Members in order — what a walk meets, and how many there are

A walk takes the lowest bit off the word at hand until none is left, and passes over words without
bits. `documents` lists the same documents word by word, and `toList_walk` says that a walk from
anywhere gives that list: so a walk over a set meets exactly the bits that are set, each once and in
ascending order. Counting words counts the entries of that list, and two sets of one length that
list the same documents are equal.
-/

namespace Cohort.DocSet

/-! ### The lowest bit of a word -/

/-- Taking the lowest bit off a number clears it and no other. -/
theorem testBit_and_sub_one {n t : Nat} (ht : n.testBit t = true)
    (hlow : ∀ j < t, n.testBit j = false) (j : Nat) :
    (n &&& (n - 1)).testBit j = (n.testBit j && decide (j ≠ t)) := by
  -- above the bits up to `t`, both numbers have the same quotient
  have hrest : n % 2 ^ (t + 1) = 2 ^ t := by
    refine Nat.eq_of_testBit_eq fun i => ?_
    rw [Nat.testBit_mod_two_pow, Nat.testBit_two_pow]
    rcases lt_trichotomy i t with hi | rfl | hi
    · rw [hlow i hi, Bool.and_false, decide_eq_false hi.ne']
    · rw [ht, decide_eq_true (Nat.lt_succ_self i), decide_eq_true rfl, Bool.and_true]
    · rw [decide_eq_false (by omega), decide_eq_false hi.ne, Bool.false_and]
  have hpos : 0 < 2 ^ t := Nat.two_pow_pos t
  have hn : n = 2 ^ (t + 1) * (n / 2 ^ (t + 1)) + 2 ^ t := by
    conv_lhs => rw [← Nat.div_add_mod n (2 ^ (t + 1)), hrest]
  have hpred : n - 1 = 2 ^ (t + 1) * (n / 2 ^ (t + 1)) + (2 ^ t - 1) := by omega
  have hlt : 2 ^ t < 2 ^ (t + 1) := Nat.pow_lt_pow_right (by decide) (Nat.lt_succ_self t)
  have hbit := Nat.testBit_two_pow_mul_add (n / 2 ^ (t + 1)) hlt j
  rw [← hn] at hbit
  rw [Nat.testBit_and, hpred, Nat.testBit_two_pow_mul_add _ (by omega), hbit]
  by_cases hj : j < t + 1
  · rw [if_pos hj, if_pos hj, Nat.testBit_two_pow, Nat.testBit_two_pow_sub_one]
    by_cases hjt : j = t
    · simp [hjt]
    · simp [hjt, Ne.symm hjt]
  · rw [if_neg hj, if_neg hj, decide_eq_true (by omega), Bool.and_self, Bool.and_true]

variable {w v : UInt64}

/-- Only the place in the word matters. -/
theorem testWord_congr {i j : Nat} (h : i % 64 = j % 64) : testWord w i = testWord w j := by
  rw [testWord_eq, testWord_eq, h]

/-- Words with the same bits are equal. -/
theorem eq_of_testWord (h : ∀ j < 64, testWord w j = testWord v j) : w = v := by
  refine UInt64.toNat_inj.mp (Nat.eq_of_testBit_eq fun j => ?_)
  by_cases hj : j < 64
  · simpa only [testWord_eq, Nat.mod_eq_of_lt hj] using h j hj
  · have hpow : 2 ^ 64 ≤ 2 ^ j := Nat.pow_le_pow_right (by decide) (by omega)
    rw [Nat.testBit_lt_two_pow (w.toNat_lt.trans_le hpow),
      Nat.testBit_lt_two_pow (v.toNat_lt.trans_le hpow)]

theorem exists_testWord (hw : w ≠ 0) : ∃ j < 64, testWord w j = true := by
  by_contra hnone
  push Not at hnone
  refine hw (eq_of_testWord fun j hj => ?_)
  rw [testWord_zero]
  exact Bool.eq_false_iff.mpr (hnone j hj)

/-- Of a word with bits, the lowest one stands at the place of its trailing zeros. -/
theorem trailingZeros_spec (hw : w ≠ 0) :
    trailingZeros w < 64 ∧ testWord w (trailingZeros w) = true ∧
    ∀ j < trailingZeros w, testWord w j = false := by
  obtain ⟨j, hj, hbit⟩ := exists_testWord hw
  have hfound : trailingZeros w < (List.range 64).length :=
    List.findIdx_lt_length.mpr ⟨j, List.mem_range.mpr hj, hbit⟩
  have hlt : trailingZeros w < 64 := by rwa [List.length_range] at hfound
  refine ⟨hlt, ?_, fun i hi => ?_⟩
  · have hget : (List.range 64)[trailingZeros w] = trailingZeros w := List.getElem_range hfound
    calc testWord w (trailingZeros w) = testWord w (List.range 64)[trailingZeros w] := by rw [hget]
      _ = true := List.findIdx_getElem
  · simpa only [List.getElem_range] using List.not_of_lt_findIdx hi

theorem testWord_dropLowest (hw : w ≠ 0) {j : Nat} (hj : j < 64) :
    testWord (dropLowest w) j = (testWord w j && decide (j ≠ trailingZeros w)) := by
  obtain ⟨hlt, hbit, hlow⟩ := trailingZeros_spec hw
  have hle : (1 : UInt64) ≤ w := by
    rw [UInt64.le_iff_toNat_le]
    exact Nat.pos_of_ne_zero fun h0 => hw (UInt64.toNat_inj.mp h0)
  have hsub : (w - 1).toNat = w.toNat - 1 := UInt64.toNat_sub_of_le _ _ hle
  rw [testWord_eq, Nat.mod_eq_of_lt hlt] at hbit
  unfold dropLowest
  rw [testWord_eq, testWord_eq, Nat.mod_eq_of_lt hj, UInt64.toNat_and, hsub]
  refine testBit_and_sub_one hbit (fun i hi => ?_) j
  have := hlow i hi
  rwa [testWord_eq, Nat.mod_eq_of_lt (hi.trans hlt)] at this

/-! ### The bits of a word -/

theorem wordBits_eq (w : UInt64) : wordBits w = (List.range 64).filter (testWord w) := by
  unfold wordBits
  split_ifs with h0
  · rw [beq_iff_eq.mp h0, eq_comm, List.filter_eq_nil_iff]
    intro j _
    simp [testWord_zero]
  · rfl

theorem mem_wordBits {j : Nat} : j ∈ wordBits w ↔ j < 64 ∧ testWord w j = true := by
  rw [wordBits_eq, List.mem_filter, List.mem_range]

theorem wordBits_pairwise (w : UInt64) : (wordBits w).Pairwise (· < ·) := by
  rw [wordBits_eq]
  exact List.pairwise_lt_range.filter _

/-- The bits of a word are its lowest one, then those of the word without it. -/
theorem wordBits_eq_cons (hw : w ≠ 0) :
    wordBits w = trailingZeros w :: wordBits (dropLowest w) := by
  obtain ⟨hlt, hbit, hlow⟩ := trailingZeros_spec hw
  have hmem : ∀ j, j ∈ wordBits (dropLowest w) ↔ j ∈ wordBits w ∧ j ≠ trailingZeros w := by
    intro j
    rw [mem_wordBits, mem_wordBits, and_assoc]
    refine and_congr_right fun hj => ?_
    rw [testWord_dropLowest hw hj, Bool.and_eq_true, decide_eq_true_eq]
  refine (wordBits_pairwise w).eq_of_mem_iff
    (List.pairwise_cons.mpr ⟨fun j hj => ?_, wordBits_pairwise _⟩) fun j => ?_
  · obtain ⟨hj, hne⟩ := (hmem j).mp hj
    refine lt_of_le_of_ne (le_of_not_gt fun hji => ?_) hne.symm
    have := (mem_wordBits.mp hj).2
    rw [hlow j hji] at this
    cases this
  · rw [List.mem_cons, hmem]
    by_cases hj : j = trailingZeros w
    · simp [hj, mem_wordBits, hlt, hbit]
    · simp [hj]

/-! ### The documents of words in a row -/

/-- The documents of words, the first of which begins at document `base`. -/
def documents (base : Nat) : List UInt64 → List Nat
  | [] => []
  | w :: ws => (wordBits w).map (base + ·) ++ documents (base + 64) ws

theorem mem_documents {ws : List UInt64} {base i : Nat} :
    i ∈ documents base ws ↔
      base ≤ i ∧ testWord (ws.getD ((i - base) / 64) 0) (i - base) = true := by
  induction ws generalizing base with
  | nil => simp [documents, testWord_zero]
  | cons w ws ih =>
    rw [documents, List.mem_append, ih, List.mem_map]
    have hfirst : (∃ j ∈ wordBits w, base + j = i) ↔
        base ≤ i ∧ i - base < 64 ∧ testWord w (i - base) = true := by
      constructor
      · rintro ⟨j, hj, rfl⟩
        rw [Nat.add_sub_cancel_left]
        exact ⟨Nat.le_add_right _ _, mem_wordBits.mp hj⟩
      · rintro ⟨hle, hj⟩
        exact ⟨i - base, mem_wordBits.mpr hj, by omega⟩
    rw [hfirst]
    by_cases hle : base ≤ i
    · by_cases hlt : i - base < 64
      · have hnot : ¬ base + 64 ≤ i := by omega
        simp [hle, hlt, hnot, Nat.div_eq_of_lt hlt]
      · -- from the second word on, all is shifted by a word
        have hnext : base + 64 ≤ i := by omega
        have hdiv : (i - base) / 64 = (i - (base + 64)) / 64 + 1 := by omega
        have hmod : (i - base) % 64 = (i - (base + 64)) % 64 := by omega
        rw [hdiv, List.getD_cons_succ, testWord_congr (w := ws.getD _ 0) hmod]
        simp [hle, hlt, hnext]
    · have hnot : ¬ base + 64 ≤ i := by omega
      simp [hle, hnot]

theorem le_of_mem_documents {ws : List UInt64} {base i : Nat} (h : i ∈ documents base ws) :
    base ≤ i :=
  (mem_documents.mp h).1

theorem documents_pairwise (ws : List UInt64) (base : Nat) :
    (documents base ws).Pairwise (· < ·) := by
  induction ws generalizing base with
  | nil => exact List.Pairwise.nil
  | cons w ws ih =>
    refine List.pairwise_append.mpr ⟨?_, ih _, fun i hi j hj => ?_⟩
    · exact List.pairwise_map.mpr ((wordBits_pairwise w).imp fun h => Nat.add_lt_add_left h _)
    · -- the first word ends before the second one begins
      obtain ⟨b, hb, rfl⟩ := List.mem_map.mp hi
      have := (mem_wordBits.mp hb).1
      have := le_of_mem_documents hj
      omega

theorem length_documents (ws : List UInt64) (base : Nat) :
    (documents base ws).length = (ws.map fun w => (wordBits w).length).sum := by
  induction ws generalizing base with
  | nil => rfl
  | cons w ws ih =>
    rw [documents, List.length_append, List.length_map, ih, List.map_cons, List.sum_cons]

/-! ### Walks -/

/-- What a walk has still to meet. -/
def Walk.rest (t : Walk) : List Nat :=
  (wordBits t.current).map (t.base + ·) ++ documents t.nextBase t.words

/-- A walk ends when nothing is left, and else meets the first of what is left. -/
theorem Walk.rest_eq (t : Walk) :
    t.rest = match t.next? with
      | none => []
      | some (doc, t') => doc :: t'.rest := by
  fun_induction next? t with
  | case1 current base nextBase words hc =>
    simp only [Walk.rest]
    rw [wordBits_eq_cons hc]
    rfl
  | case2 current base nextBase hc =>
    obtain rfl : current = 0 := not_not.mp hc
    rfl
  | case3 current base nextBase hc w ws ih =>
    obtain rfl : current = 0 := not_not.mp hc
    exact ih

/-- A walk from anywhere meets what is left, in order. -/
theorem toList_walk (t : Walk) : t.toList = t.rest := by
  fun_induction Walk.toList t with
  | case1 t h => rw [t.rest_eq, Option.attach_eq_none_iff.mp h]
  | case2 t doc t' h _ ih => rw [t.rest_eq, h, ih]

variable {s t : DocSet} {i j : Nat}

theorem toList_eq (s : DocSet) : s.toList = documents 0 s.words.toList := toList_walk s.walk

/-- A document is met if its bit is set. -/
theorem mem_toList : i ∈ s.toList ↔ bitAt s.words i = true := by
  rw [toList_eq, mem_documents, Nat.sub_zero]
  unfold bitAt
  rw [List.getD_eq_getElem?_getD, Array.getElem?_toList, Array.getD_eq_getD_getElem?]
  simp

theorem toList_pairwise (s : DocSet) : s.toList.Pairwise (· < ·) := by
  rw [toList_eq]
  exact documents_pairwise _ _

theorem nodup_toList (s : DocSet) : s.toList.Nodup :=
  s.toList_pairwise.imp ne_of_lt

theorem not_mem_toList_empty (len i : Nat) : i ∉ (empty len).toList := by
  rw [mem_toList, bitAt_empty]
  exact Bool.false_ne_true

theorem mem_toList_insert? (hs : s.Sized) (h : s.insert? i = some t) :
    j ∈ t.toList ↔ j ∈ s.toList ∨ j = i := by
  rw [mem_toList, mem_toList, bitAt_insert? hs h]
  simp

/-- Below the length, the list and `contains` agree. -/
theorem mem_toList_iff_contains (hi : i < s.len) : i ∈ s.toList ↔ s.contains i = true := by
  rw [mem_toList]
  simp [contains_eq, hi]

/-- Counting the bits of the words counts the members. -/
theorem card_eq_length (s : DocSet) : s.card = s.toList.length := by
  have hfold : ∀ (ws : List UInt64) (n : Nat),
      ws.foldl (fun n w => n + (wordBits w).length) n =
        n + (ws.map fun w => (wordBits w).length).sum := by
    intro ws
    induction ws with
    | nil => exact fun n => rfl
    | cons w ws ih =>
      intro n
      rw [List.foldl_cons, ih, List.map_cons, List.sum_cons, Nat.add_assoc]
  rw [toList_eq, length_documents]
  show s.words.foldl _ 0 = _
  rw [← Array.foldl_toList, hfold, Nat.zero_add]

/-! ### Sets with the same members -/

theorem words_ext {words words' : Array UInt64} (hsize : words.size = words'.size)
    (h : ∀ i, bitAt words i = bitAt words' i) : words = words' := by
  refine Array.ext hsize fun k hk hk' => eq_of_testWord fun j hj => ?_
  have hdiv : (k * 64 + j) / 64 = k := by omega
  have hbit := h (k * 64 + j)
  rw [bitAt_of_getElem? (w := words[k]) (by rw [hdiv, Array.getElem?_eq_getElem hk]),
    bitAt_of_getElem? (w := words'[k]) (by rw [hdiv, Array.getElem?_eq_getElem hk'])] at hbit
  have hmod : (k * 64 + j) % 64 = j % 64 := by omega
  rwa [testWord_congr hmod, testWord_congr hmod] at hbit

/-- Sets of one length with the same members are the same words. -/
theorem WellFormed.ext (hs : s.WellFormed) (ht : t.WellFormed) (hlen : s.len = t.len)
    (h : ∀ i, s.contains i = t.contains i) : s = t := by
  have hwords : s.words = t.words := by
    refine words_ext ?_ fun i => ?_
    · rw [hs.sized, ht.sized, hlen]
    · rw [← hs.contains_eq_bitAt, ← ht.contains_eq_bitAt, h]
  cases s
  cases t
  simp_all

end Cohort.DocSet
