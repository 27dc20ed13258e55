import Mathlib.Data.Nat.Basic
import Cohort.Proofs.Ascending
import Cohort.Proofs.Shard
import Cohort.Regroup.MultiRules

/-!
# Sweeps — what one walk up the terms of a field finds

`numbersOf tests target v` are the numbers of the tests of one rule that the value `v` satisfies.
At every term the sweep knows the smallest of them for every rule, though it never looks back at a
test: the suffix minima of a ladder answer for all inequalities at once, and the selection of terms
only leaves out those that satisfy nothing. The table of numbers is kept from term to term, but as
every target is overwritten, nothing of an earlier term is left in it.
-/

namespace Cohort.Regroup

/-! ### Ladders -/

section Minima

variable {τ : Type}

theorem smaller?_min? (xs ys : List Nat) :
    Sweep.smaller? xs.min? ys.min? = (xs ++ ys).min? := by
  cases hx : xs.min? with
  | none =>
    rw [List.min?_eq_none_iff] at hx
    rw [hx]
    rfl
  | some a =>
    obtain ⟨ha, hxs⟩ := List.min?_eq_some_iff.mp hx
    cases hy : ys.min? with
    | none =>
      rw [List.min?_eq_none_iff] at hy
      rw [hy, List.append_nil, hx]
      rfl
    | some b =>
      obtain ⟨hb, hys⟩ := List.min?_eq_some_iff.mp hy
      refine (List.min?_eq_some_iff.mpr ⟨?_, ?_⟩).symm
      · rcases Nat.le_total a b with h | h
        · rw [Nat.min_eq_left h]
          exact List.mem_append_left _ ha
        · rw [Nat.min_eq_right h]
          exact List.mem_append_right _ hb
      · intro c hc
        rcases List.mem_append.mp hc with hc | hc
        · exact Nat.le_trans (Nat.min_le_left a b) (hxs c hc)
        · exact Nat.le_trans (Nat.min_le_right a b) (hys c hc)

theorem suffixMinima_cons (t : τ) (n : Nat) (rest : List (τ × Nat)) :
    ∃ m, suffixMinima ((t, n) :: rest) = (t, m) :: suffixMinima rest ∧
      some m = Sweep.smaller? (some n) ((suffixMinima rest).head?.map (·.2)) := by
  rw [suffixMinima]
  cases suffixMinima rest with
  | nil => exact ⟨n, rfl, rfl⟩
  | cons e es => exact ⟨min n e.2, rfl, rfl⟩

/-- The first number is the smallest of all. -/
theorem head?_suffixMinima (l : List (τ × Nat)) :
    (suffixMinima l).head?.map (·.2) = (l.map (·.2)).min? := by
  induction l with
  | nil => rfl
  | cons e l ih =>
    obtain ⟨m, hm, hmin⟩ := suffixMinima_cons e.1 e.2 l
    rw [show e :: l = (e.1, e.2) :: l from rfl, hm, List.head?_cons, Option.map_some, hmin, ih]
    exact smaller?_min? [e.2] (l.map (·.2))

variable [LT τ] [DecidableLT τ]

/-- Thresholds may be dropped before or after the minima are taken. -/
theorem dropWhile_suffixMinima (v : τ) (l : List (τ × Nat)) :
    (suffixMinima l).dropWhile (·.1 < v) = suffixMinima (l.dropWhile (·.1 < v)) := by
  induction l with
  | nil => rfl
  | cons e l ih =>
    obtain ⟨m, hm, -⟩ := suffixMinima_cons e.1 e.2 l
    by_cases hv : e.1 < v
    · rw [List.dropWhile_cons_of_pos (by simpa using hv), ← ih,
        show e :: l = (e.1, e.2) :: l from rfl, hm, List.dropWhile_cons_of_pos (by simpa using hv)]
    · rw [List.dropWhile_cons_of_neg (by simpa using hv),
        show e :: l = (e.1, e.2) :: l from rfl, hm, List.dropWhile_cons_of_neg (by simpa using hv)]

end Minima

/-! ### Tables -/

section Tables

variable {f : Nat → Option Nat} {keys : List Nat} {target : Nat} {number : Option Nat}

/-- The table with the entries that `f` gives to some of `keys`. -/
def tableOf (keys : List Nat) (f : Nat → Option Nat) : List (Nat × Nat) :=
  keys.filterMap fun k => (f k).map (k, ·)

theorem tableOf_cons (k : Nat) (keys : List Nat) (f : Nat → Option Nat) :
    tableOf (k :: keys) f = ((f k).map (k, ·)).toList ++ tableOf keys f := by
  unfold tableOf
  rw [List.filterMap_cons]
  cases f k <;> rfl

theorem key_mem_of_mem_tableOf {e : Nat × Nat} (he : e ∈ tableOf keys f) : e.1 ∈ keys := by
  obtain ⟨k, hk, hf⟩ := List.mem_filterMap.mp he
  obtain ⟨n, -, rfl⟩ := Option.map_eq_some_iff.mp hf
  exact hk

theorem tableOf_congr {g : Nat → Option Nat} (h : ∀ k ∈ keys, f k = g k) :
    tableOf keys f = tableOf keys g :=
  List.filterMap_congr fun k hk => by rw [h k hk]

theorem lookup_tableOf (hkeys : keys.Nodup) (k : Nat) :
    (tableOf keys f).lookup k = if k ∈ keys then f k else none := by
  induction keys with
  | nil => rfl
  | cons i keys ih =>
    obtain ⟨hi, hrest⟩ := List.nodup_cons.mp hkeys
    rw [tableOf_cons]
    by_cases hk : k = i
    · subst hk
      rw [if_pos List.mem_cons_self]
      cases hf : f k with
      | none =>
        show (tableOf keys f).lookup k = none
        rw [ih hrest, if_neg hi]
      | some n => exact List.lookup_cons_self
    · have hmem : k ∈ i :: keys ↔ k ∈ keys := by simp [hk]
      have hkeep : (if k ∈ i :: keys then f k else none) = if k ∈ keys then f k else none := by
        simp only [hmem]
      rw [hkeep, ← ih hrest]
      cases hf : f i with
      | none => rfl
      | some n =>
        show List.lookup k ((i, n) :: tableOf keys f) = _
        rw [List.lookup_cons, beq_false_of_ne hk]

/-- An entry below all others is put before them. -/
theorem overwrite_of_lt {table : List (Nat × Nat)} (h : ∀ e ∈ table, target < e.1) :
    overwrite target number table = (number.map (target, ·)).toList ++ table := by
  cases table with
  | nil => exact (List.append_nil _).symm
  | cons e rest =>
    have he : target < e.1 := h e List.mem_cons_self
    unfold overwrite
    rw [if_neg (Nat.lt_asymm he), if_neg (Nat.ne_of_gt he)]

/-- Overwriting the entry of a key changes what the table has for it, whatever stood there. -/
theorem overwrite_tableOf (hkeys : keys.Pairwise (· < ·)) (htarget : target ∈ keys) :
    overwrite target number (tableOf keys f) =
      tableOf keys fun k => if k = target then number else f k := by
  induction keys with
  | nil => cases htarget
  | cons i keys ih =>
    obtain ⟨hi, hrest⟩ := List.pairwise_cons.mp hkeys
    rw [tableOf_cons, tableOf_cons]
    by_cases hit : i = target
    · subst hit
      have hbelow : ∀ e ∈ tableOf keys f, i < e.1 := fun e he => hi _ (key_mem_of_mem_tableOf he)
      have hkeep : tableOf keys (fun k => if k = i then number else f k) = tableOf keys f :=
        tableOf_congr fun k hk => if_neg (Nat.ne_of_gt (hi k hk))
      rw [hkeep, if_pos rfl]
      cases f i with
      | none => exact overwrite_of_lt hbelow
      | some n =>
        show overwrite i number ((i, n) :: tableOf keys f) = _
        unfold overwrite
        rw [if_neg (Nat.lt_irrefl i), if_pos rfl]
    · have hmem : target ∈ keys := List.mem_of_ne_of_mem (Ne.symm hit) htarget
      rw [if_neg hit, ← ih hrest hmem]
      cases f i with
      | none => rfl
      | some n =>
        show overwrite target number ((i, n) :: tableOf keys f) = _
        rw [overwrite, if_pos (hi target hmem)]
        rfl

/-- Once all keys are overwritten, nothing of the old table is left. -/
theorem foldl_overwrite (hkeys : keys.Pairwise (· < ·)) (g : Nat → Option Nat) :
    (keys.map fun k => (k, g k)).foldl (fun remap e => overwrite e.1 e.2 remap) (tableOf keys f) =
      tableOf keys g := by
  suffices h : ∀ (targets : List Nat) (f : Nat → Option Nat), targets ⊆ keys →
      (targets.map fun k => (k, g k)).foldl (fun remap e => overwrite e.1 e.2 remap)
        (tableOf keys f) = tableOf keys fun k => if k ∈ targets then g k else f k by
    rw [h keys f fun _ hk => hk]
    exact tableOf_congr fun k hk => if_pos hk
  intro targets
  induction targets with
  | nil =>
    intro f _
    exact tableOf_congr fun k _ => (if_neg List.not_mem_nil).symm
  | cons t targets ih =>
    intro f hsub
    obtain ⟨ht, hrest⟩ := List.cons_subset.mp hsub
    rw [List.map_cons, List.foldl_cons, overwrite_tableOf hkeys ht, ih _ hrest]
    refine tableOf_congr fun k _ => ?_
    by_cases hk : k ∈ targets
    · rw [if_pos hk, if_pos (List.mem_cons_of_mem _ hk)]
    · by_cases hkt : k = t
      · rw [if_neg hk, if_pos hkt, if_pos (hkt ▸ List.mem_cons_self), hkt]
      · rw [if_neg hk, if_neg hkt, if_neg fun hmem => (List.mem_cons.mp hmem).elim hkt hk]

end Tables

section Sweeps

variable {τ : Type} [LinearOrder τ] {tests : List (FieldTest τ)}

/-- Whether a value satisfies a test. -/
def FieldTest.holds (x : FieldTest τ) (v : τ) : Bool :=
  if x.inequality then !decide (x.term < v) else decide (x.term = v)

/-- The numbers of the tests of a rule that a value satisfies. -/
def numbersOf (tests : List (FieldTest τ)) (target : Nat) (v : τ) : List Nat :=
  (tests.filter fun x => x.target == target && x.holds v).map (·.number)

theorem mem_numbersOf {target n : Nat} {v : τ} : n ∈ numbersOf tests target v ↔
    ∃ x ∈ tests, x.target = target ∧ x.holds v = true ∧ x.number = n := by
  simp only [numbersOf, List.mem_map, List.mem_filter, Bool.and_eq_true, beq_iff_eq]
  constructor
  · rintro ⟨x, ⟨hx, ht, hv⟩, rfl⟩
    exact ⟨x, hx, ht, hv, rfl⟩
  · rintro ⟨x, hx, ht, hv, rfl⟩
    exact ⟨x, ⟨hx, ht, hv⟩, rfl⟩

/-- The head of a ladder is the smallest number of an inequality that the value satisfies. -/
theorem best?_advance (tests : List (FieldTest τ)) (target : Nat) (v : τ) :
    ((Ladder.ofTests tests target).advance v).best? =
      (numbersOf (tests.filter (·.inequality)) target v).min? := by
  have hasc := pairwise_mergeSort_key Prod.fst
    ((tests.filter fun x => x.target == target && x.inequality).map fun x => (x.term, x.number))
  unfold Ladder.ofTests Ladder.advance Ladder.best?
  simp only
  rw [dropWhile_suffixMinima, head?_suffixMinima, dropWhile_eq_filter]
  · refine min?_congr fun n => ?_
    simp only [mem_numbersOf, List.mem_map, List.mem_filter, List.mem_mergeSort, Bool.and_eq_true,
      beq_iff_eq, FieldTest.holds]
    constructor
    · rintro ⟨e, ⟨⟨x, ⟨hx, ht, hi⟩, rfl⟩, hv⟩, rfl⟩
      exact ⟨x, ⟨hx, hi⟩, ht, by simpa [hi] using hv, rfl⟩
    · rintro ⟨x, ⟨hx, hi⟩, ht, hv, rfl⟩
      exact ⟨(x.term, x.number), ⟨⟨x, ⟨hx, ht, hi⟩, rfl⟩, by simpa [hi] using hv⟩, rfl⟩
  · refine hasc.imp fun hab hb => ?_
    simp only [decide_eq_true_eq] at hb ⊢
    exact lt_of_le_of_lt hab hb

theorem Ladder.advance_advance (l : Ladder τ) {u v : τ} (huv : u ≤ v) :
    (l.advance u).advance v = l.advance v := by
  unfold Ladder.advance
  simp only [Ladder.mk.injEq, true_and]
  refine dropWhile_dropWhile (fun x hx => ?_) l.rungs
  simp only [decide_eq_true_eq] at hx ⊢
  exact lt_of_lt_of_le hx huv

/-! ### Equalities -/

/-- Of ascending numbers the first is the smallest. -/
theorem head?_eq_min? {xs : List Nat} (h : xs.Pairwise (· < ·)) : xs.head? = xs.min? := by
  cases xs with
  | nil => rfl
  | cons x xs =>
    refine (List.min?_eq_some_iff.mpr ⟨List.mem_cons_self, fun y hy => ?_⟩).symm
    rcases List.mem_cons.mp hy with rfl | hy
    · exact Nat.le_refl _
    · exact Nat.le_of_lt ((List.pairwise_cons.mp h).1 y hy)

theorem equalityFor?_ofTests (hasc : tests.Pairwise fun x y => x.number < y.number)
    (target : Nat) (v : τ) : (Sweep.ofTests tests).equalityFor? target v =
      (numbersOf (tests.filter (!·.inequality)) target v).min? := by
  have hpick : ((tests.filter (!·.inequality)).filter fun x => x.target == target && x.holds v) =
      (tests.filter (!·.inequality)).filter fun x => x.target == target && x.term = v := by
    refine List.filter_congr fun x hx => ?_
    have hi : x.inequality = false := by simpa using (List.mem_filter.mp hx).2
    simp [FieldTest.holds, hi]
  have hnums : (numbersOf (tests.filter (!·.inequality)) target v).Pairwise (· < ·) := by
    unfold numbersOf
    rw [List.pairwise_map]
    exact (hasc.filter _).filter _
  rw [← head?_eq_min? hnums]
  unfold Sweep.equalityFor? Sweep.ofTests numbersOf
  rw [hpick, List.head?_map, List.head?_filter]

/-! ### Terms one by one -/

/-- The smallest number for every rule that has some test the value satisfies. -/
def matchNumbers (tests : List (FieldTest τ)) (v : τ) : List (Nat × Nat) :=
  tableOf (distinctSorted (tests.map (·.target))) fun target => (numbersOf tests target v).min?

/-- What the table of a term says of a rule. -/
theorem lookup_matchNumbers (tests : List (FieldTest τ)) (v : τ) (target : Nat) :
    (matchNumbers tests v).lookup target = (numbersOf tests target v).min? := by
  have hnodup : (distinctSorted (tests.map (·.target))).Nodup :=
    (pairwise_distinctSorted _).imp fun hab => Nat.ne_of_lt hab
  unfold matchNumbers
  rw [lookup_tableOf hnodup]
  split_ifs with hmem
  · rfl
  · refine (List.min?_eq_none_iff.mpr (List.eq_nil_iff_forall_not_mem.mpr fun n hn => ?_)).symm
    obtain ⟨x, hx, rfl, -, -⟩ := mem_numbersOf.mp hn
    exact hmem (mem_distinctSorted.mpr (List.mem_map_of_mem hx))

theorem matchNumbers_isEmpty {v : τ} : (matchNumbers tests v).isEmpty = true ↔
    ∀ x ∈ tests, x.holds v = false := by
  rw [List.isEmpty_iff, List.eq_nil_iff_forall_not_mem]
  constructor
  · intro h x hx
    by_contra hv
    rw [Bool.not_eq_false] at hv
    have hmem : x.number ∈ numbersOf tests x.target v := mem_numbersOf.mpr ⟨x, hx, rfl, hv, rfl⟩
    cases hmin : (numbersOf tests x.target v).min? with
    | none =>
      rw [List.min?_eq_none_iff] at hmin
      rw [hmin] at hmem
      cases hmem
    | some n =>
      refine h (x.target, n) (List.mem_filterMap.mpr ⟨x.target, ?_, by simp only [hmin, Option.map_some]⟩)
      exact mem_distinctSorted.mpr (List.mem_map_of_mem hx)
  · rintro h ⟨target, n⟩ hmem
    obtain ⟨i, -, hi⟩ := List.mem_filterMap.mp hmem
    obtain ⟨m, hm, -⟩ := Option.map_eq_some_iff.mp hi
    obtain ⟨x, hx, -, hv, -⟩ := mem_numbersOf.mp (List.min?_mem hm)
    rw [h x hx] at hv
    cases hv

/-- The ladders and the equalities together give the smallest number of a rule. -/
theorem smaller?_ofTests (hasc : tests.Pairwise fun x y => x.number < y.number) (target : Nat)
    (v : τ) : Sweep.smaller? ((Ladder.ofTests tests target).advance v).best?
        ((Sweep.ofTests tests).equalityFor? target v) =
      (numbersOf tests target v).min? := by
  rw [best?_advance, equalityFor?_ofTests hasc, smaller?_min?]
  refine min?_congr fun n => ?_
  simp only [List.mem_append, mem_numbersOf, List.mem_filter]
  constructor
  · rintro (⟨x, ⟨hx, -⟩, h⟩ | ⟨x, ⟨hx, -⟩, h⟩)
    · exact ⟨x, hx, h⟩
    · exact ⟨x, hx, h⟩
  · rintro ⟨x, hx, h⟩
    cases hi : x.inequality with
    | true => exact .inl ⟨x, ⟨hx, hi⟩, h⟩
    | false => exact .inr ⟨x, ⟨hx, by rw [hi]; rfl⟩, h⟩

/-- A sweep that has not passed `v`: its ladders still have all that `v` satisfies, and its table
may hold any numbers, but only for targets of the field. -/
structure Sweep.Before (tests : List (FieldTest τ)) (s : Sweep τ) (v : τ) : Prop where
  equalities : s.equalities = (Sweep.ofTests tests).equalities
  ladders : s.ladders.map (·.advance v) = (Sweep.ofTests tests).ladders.map (·.advance v)
  remap : ∃ f, s.remap = tableOf (distinctSorted (tests.map (·.target))) f

theorem before_ofTests (tests : List (FieldTest τ)) (v : τ) :
    (Sweep.ofTests tests).Before tests v := by
  refine ⟨rfl, rfl, fun _ => none, ?_⟩
  unfold tableOf
  rw [show (fun k => Option.map (Prod.mk k) none) = fun _ : Nat => (none : Option (Nat × Nat))
    from rfl, List.filterMap_none]
  rfl

/-- At the next term the sweep finds the smallest numbers, whatever it has found before. -/
theorem Sweep.Before.advance_eq (hasc : tests.Pairwise fun x y => x.number < y.number)
    {s : Sweep τ} {v : τ} (hs : s.Before tests v) :
    (s.advance v).1.remap = matchNumbers tests v ∧
      (s.advance v).2 = !(matchNumbers tests v).isEmpty := by
  have hnumbers : (s.ladders.map (·.advance v)).map (fun l =>
        (l.target, Sweep.smaller? l.best? (s.equalityFor? l.target v))) =
      (distinctSorted (tests.map (·.target))).map fun target =>
        (target, (numbersOf tests target v).min?) := by
    unfold Sweep.equalityFor?
    rw [hs.ladders, hs.equalities, show (Sweep.ofTests tests).ladders =
      (distinctSorted (tests.map (·.target))).map (Ladder.ofTests tests) from rfl,
      List.map_map, List.map_map]
    refine List.map_congr_left fun target _ => ?_
    exact congrArg (Prod.mk target) (smaller?_ofTests hasc target v)
  obtain ⟨f, hf⟩ := hs.remap
  unfold Sweep.advance
  simp only [hnumbers, hf]
  refine ⟨foldl_overwrite (pairwise_distinctSorted _) _, ?_⟩
  unfold matchNumbers tableOf
  rw [List.any_map]
  induction distinctSorted (tests.map (·.target)) with
  | nil => rfl
  | cons k keys ih =>
    rw [List.any_cons, ih, List.filterMap_cons]
    cases hmin : (numbersOf tests k v).min? <;> simp [hmin]

/-- A sweep that moves on to a term has not passed those after it. -/
theorem Sweep.Before.advance (hasc : tests.Pairwise fun x y => x.number < y.number)
    {s : Sweep τ} {u v : τ} (hu : s.Before tests u) (hv : s.Before tests v) (huv : u ≤ v) :
    (s.advance u).1.Before tests v := by
  refine ⟨hv.equalities, ?_, _, (hu.advance_eq hasc).1⟩
  show (s.ladders.map (·.advance u)).map (·.advance v) = _
  rw [List.map_map, ← hv.ladders]
  exact List.map_congr_left fun l _ => l.advance_advance huv

/-- What a sweep reports of an entry. -/
def matchOf (tests : List (FieldTest τ)) (e : τ × List Nat) :
    Option (τ × List Nat × List (Nat × Nat)) :=
  if (matchNumbers tests e.1).isEmpty then none else some (e.1, e.2, matchNumbers tests e.1)

theorem matchOf_eq_some {e : τ × List Nat} {m : τ × List Nat × List (Nat × Nat)} :
    matchOf tests e = some m ↔
      (∃ x ∈ tests, x.holds e.1 = true) ∧ m = (e.1, e.2, matchNumbers tests e.1) := by
  have hempty : ¬ (matchNumbers tests e.1).isEmpty = true ↔ ∃ x ∈ tests, x.holds e.1 = true := by
    rw [matchNumbers_isEmpty]
    simp
  rw [← hempty]
  unfold matchOf
  split_ifs with h
  · simp [h]
  · simp [h, eq_comm]

theorem matchesOf_cons (s : Sweep τ) (e : τ × List Nat) (entries : List (τ × List Nat)) :
    s.matchesOf (e :: entries) =
      if (s.advance e.1).2 then
        (e.1, e.2, (s.advance e.1).1.remap) :: (s.advance e.1).1.matchesOf entries
      else (s.advance e.1).1.matchesOf entries := rfl

/-- A sweep that has not passed any of the entries finds their matches. -/
theorem matchesOf_eq (hasc : tests.Pairwise fun x y => x.number < y.number)
    {entries : List (τ × List Nat)} (hentries : entries.Pairwise fun a b => a.1 < b.1)
    {s : Sweep τ} (hs : ∀ e ∈ entries, s.Before tests e.1) :
    s.matchesOf entries = entries.filterMap (matchOf tests) := by
  induction entries generalizing s with
  | nil => rfl
  | cons e entries ih =>
    obtain ⟨he, hentries⟩ := List.pairwise_cons.mp hentries
    obtain ⟨hfirst, hafter⟩ := List.forall_mem_cons.mp hs
    obtain ⟨hremap, hfound⟩ := hfirst.advance_eq hasc
    have hrest : (s.advance e.1).1.matchesOf entries = entries.filterMap (matchOf tests) :=
      ih hentries fun f hf => hfirst.advance hasc (hafter f hf) (le_of_lt (he f hf))
    rw [matchesOf_cons, hremap, hfound, hrest, List.filterMap_cons]
    unfold matchOf
    cases (matchNumbers tests e.1).isEmpty <;> rfl

/-! ### The selection of terms -/

theorem greatest?_spec (ts : List τ) : (ts = [] ∧ TermSelection.greatest? ts = none) ∨
    ∃ g ∈ ts, TermSelection.greatest? ts = some g ∧ ∀ t ∈ ts, t ≤ g := by
  cases ts with
  | nil => exact .inl ⟨rfl, rfl⟩
  | cons t ts =>
    refine .inr ?_
    show ∃ g ∈ t :: ts, some (ts.foldl (fun best t => if best < t then t else best) t) = some g ∧ _
    induction ts generalizing t with
    | nil => exact ⟨t, List.mem_cons_self, rfl, by simp⟩
    | cons u ts ih =>
      obtain ⟨g, hg, heq, hle⟩ := ih (if t < u then u else t)
      refine ⟨g, ?_, heq, ?_⟩
      · rcases List.mem_cons.mp hg with rfl | hg
        · split_ifs <;> simp
        · exact List.mem_cons_of_mem _ (List.mem_cons_of_mem _ hg)
      · have hbest := hle _ List.mem_cons_self
        intro x hx
        rcases List.mem_cons.mp hx with rfl | hx
        · split_ifs at hbest with htu
          · exact le_trans (le_of_lt htu) hbest
          · exact hbest
        · rcases List.mem_cons.mp hx with rfl | hx
          · split_ifs at hbest with htu
            · exact hbest
            · exact le_trans (not_lt.mp htu) hbest
          · exact hle x (List.mem_cons_of_mem _ hx)

section Visits

variable {p : Postings τ} {e : τ × List Nat} (hterms : p.entries.Pairwise fun a b => a.1 < b.1)

include hterms

theorem mem_of_mem_visits {s : TermSelection τ} (he : e ∈ s.visits p) : e ∈ p.entries := by
  rcases List.mem_append.mp he with he | he
  · cases hu : s.upTo with
    | none =>
      rw [hu] at he
      cases he
    | some g =>
      rw [hu] at he
      exact List.takeWhile_subset _ he
  · obtain ⟨t, -, ht⟩ := List.mem_filterMap.mp he
    obtain ⟨docs, hdocs, rfl⟩ := Option.map_eq_some_iff.mp ht
    exact (Postings.find?_eq_some hterms).mp hdocs

theorem pairwise_visits (conditions : List (τ × Bool)) :
    ((TermSelection.ofConditions conditions).visits p).Pairwise fun a b => a.1 < b.1 := by
  refine List.pairwise_append.mpr ⟨?_, ?_, ?_⟩
  · cases (TermSelection.ofConditions conditions).upTo with
    | none => exact List.Pairwise.nil
    | some g => exact hterms.sublist (List.takeWhile_sublist _)
  · refine List.Pairwise.filterMap _ ?_ (pairwise_distinctSorted _)
    intro t u htu a ha b hb
    obtain ⟨da, -, rfl⟩ := Option.map_eq_some_iff.mp ha
    obtain ⟨db, -, rfl⟩ := Option.map_eq_some_iff.mp hb
    exact htu
  · -- the terms of equalities are only sought above the largest bound
    intro a ha b hb
    obtain ⟨t, ht, htb⟩ := List.mem_filterMap.mp hb
    obtain ⟨db, -, rfl⟩ := Option.map_eq_some_iff.mp htb
    have habove := (List.mem_filter.mp (mem_distinctSorted.mp ht)).2
    unfold TermSelection.ofConditions at ha
    simp only at ha
    cases hu : TermSelection.greatest? ((conditions.filter (·.2)).map (·.1)) with
    | none =>
      rw [hu] at ha
      cases ha
    | some g =>
      rw [hu] at ha habove
      have hag : a ∈ p.upTo g := ha
      rw [Postings.upTo_eq hterms, List.mem_filter] at hag
      have hle : a.1 ≤ g := by simpa using hag.2
      exact lt_of_le_of_lt hle (by simpa using habove)

variable {conditions : List (τ × Bool)}

theorem mem_visits_of_le (he : e ∈ p.entries) {g : τ}
    (hg : TermSelection.greatest? ((conditions.filter (·.2)).map (·.1)) = some g) (hle : e.1 ≤ g) :
    e ∈ (TermSelection.ofConditions conditions).visits p := by
  refine List.mem_append_left _ ?_
  show e ∈ ((TermSelection.greatest? _).map p.upTo).getD []
  rw [hg, Option.map_some, Option.getD_some, Postings.upTo_eq hterms, List.mem_filter]
  exact ⟨he, by simpa using hle⟩

/-- The entries up to the threshold of an inequality are visited. -/
theorem mem_visits_of_threshold (he : e ∈ p.entries) {t : τ}
    (ht : (t, true) ∈ conditions) (hle : e.1 ≤ t) :
    e ∈ (TermSelection.ofConditions conditions).visits p := by
  have hin : t ∈ (conditions.filter (·.2)).map (·.1) :=
    List.mem_map.mpr ⟨_, List.mem_filter.mpr ⟨ht, rfl⟩, rfl⟩
  rcases greatest?_spec ((conditions.filter (·.2)).map (·.1)) with ⟨hnil, -⟩ | ⟨g, -, hg, hmax⟩
  · rw [hnil] at hin
    cases hin
  · exact mem_visits_of_le hterms he hg (le_trans hle (hmax _ hin))

/-- The entry of an equality is visited: on the way up to the greatest threshold, or after it. -/
theorem mem_visits_of_equality (he : e ∈ p.entries)
    (ht : (e.1, false) ∈ conditions) :
    e ∈ (TermSelection.ofConditions conditions).visits p := by
  by_cases habove : ∀ g, TermSelection.greatest? ((conditions.filter (·.2)).map (·.1)) = some g →
      g < e.1
  · refine List.mem_append_right _ (List.mem_filterMap.mpr ⟨e.1, ?_, ?_⟩)
    · refine mem_distinctSorted.mpr (List.mem_filter.mpr ⟨?_, ?_⟩)
      · exact List.mem_map.mpr ⟨_, List.mem_filter.mpr ⟨ht, rfl⟩, rfl⟩
      · exact (Option.all_eq_true _ _).mpr fun g hg => by simpa using habove g hg
    · rw [(Postings.find?_eq_some hterms).mpr (show (e.1, e.2) ∈ p.entries from he)]
      rfl
  · simp only [not_forall] at habove
    obtain ⟨g, hg, hge⟩ := habove
    exact mem_visits_of_le hterms he hg (not_lt.mp hge)

/-- No entry is left out that some condition holds of. -/
theorem mem_visits_of_condition (he : e ∈ p.entries) {t : τ}
    {inequality : Bool} (ht : (t, inequality) ∈ conditions)
    (hv : (FieldTest.mk 0 0 t inequality).holds e.1 = true) :
    e ∈ (TermSelection.ofConditions conditions).visits p := by
  unfold FieldTest.holds at hv
  cases inequality with
  | true => exact mem_visits_of_threshold hterms he ht (by simpa using hv)
  | false =>
    have heq : t = e.1 := by simpa using hv
    exact mem_visits_of_equality hterms he (heq ▸ ht)

theorem mem_visits_of_holds (he : e ∈ p.entries) {x : FieldTest τ}
    (hx : x ∈ tests) (hv : x.holds e.1 = true) :
    e ∈ (Sweep.ofTests tests).selection.visits p :=
  mem_visits_of_condition hterms he (List.mem_map.mpr ⟨x, hx, rfl⟩) hv

end Visits

theorem pairwise_filterMap_matchOf {entries : List (τ × List Nat)}
    (h : entries.Pairwise fun a b => a.1 < b.1) :
    (entries.filterMap (matchOf tests)).Pairwise fun a b => a.1 < b.1 := by
  refine h.filterMap _ fun a b hab c hc d hd => ?_
  rw [(matchOf_eq_some.mp hc).2, (matchOf_eq_some.mp hd).2]
  exact hab

/-- The sweep of a field reports the entries that satisfy some test, ascending, each with the
smallest number for every rule. -/
theorem fieldMatches_eq (hasc : tests.Pairwise fun x y => x.number < y.number) {p : Postings τ}
    (hterms : p.entries.Pairwise fun a b => a.1 < b.1) :
    fieldMatches tests p = p.entries.filterMap (matchOf tests) := by
  have hvisits := pairwise_visits hterms (tests.map fun t => (t.term, t.inequality))
  have hrun : fieldMatches tests p =
      ((Sweep.ofTests tests).selection.visits p).filterMap (matchOf tests) :=
    matchesOf_eq hasc hvisits fun e _ => before_ofTests tests e.1
  rw [hrun]
  refine ascending_ext (pairwise_filterMap_matchOf hvisits) (pairwise_filterMap_matchOf hterms)
    fun m => ?_
  rw [List.mem_filterMap, List.mem_filterMap]
  constructor
  · rintro ⟨f, hf, hm⟩
    exact ⟨f, mem_of_mem_visits hterms hf, hm⟩
  · rintro ⟨f, hf, hm⟩
    obtain ⟨⟨x, hx, hv⟩, -⟩ := matchOf_eq_some.mp hm
    exact ⟨f, mem_visits_of_holds hterms hf hx hv, hm⟩

end Sweeps

end Cohort.Regroup
