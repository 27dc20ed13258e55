import Mathlib.Data.List.Sort
import Mathlib.Order.Lattice
import Cohort.Regroup.Split

/-!
# Ascending lists — where walking on and filtering are the same

On a list that ascends, what a walk passes over or stops at is what a filter keeps.
`distinctSorted` gives the strictly ascending list of the entries.
-/

namespace Cohort

variable {α τ : Type}

/-! ### Walks -/

theorem takeWhile_eq_filter {p : α → Bool} {xs : List α}
    (h : xs.Pairwise fun a b => p b = true → p a = true) : xs.takeWhile p = xs.filter p := by
  induction xs with
  | nil => rfl
  | cons x xs ih =>
    obtain ⟨hx, hxs⟩ := List.pairwise_cons.mp h
    by_cases hp : p x = true
    · rw [List.takeWhile_cons_of_pos hp, List.filter_cons_of_pos hp, ih hxs]
    · have hnone : ∀ y ∈ xs, ¬ p y = true := fun y hy hpy => hp (hx y hy hpy)
      rw [List.takeWhile_cons_of_neg hp, List.filter_cons_of_neg hp,
        List.filter_eq_nil_iff.mpr hnone]

theorem dropWhile_eq_filter {p : α → Bool} {xs : List α}
    (h : xs.Pairwise fun a b => p b = true → p a = true) :
    xs.dropWhile p = xs.filter fun x => !p x := by
  induction xs with
  | nil => rfl
  | cons x xs ih =>
    obtain ⟨hx, hxs⟩ := List.pairwise_cons.mp h
    by_cases hp : p x = true
    · rw [List.dropWhile_cons_of_pos hp, List.filter_cons_of_neg (by simp [hp]), ih hxs]
    · have hall : ∀ y ∈ xs, (!p y) = true := fun y hy => by
        have : ¬ p y = true := fun hpy => hp (hx y hy hpy)
        simpa using this
      rw [List.dropWhile_cons_of_neg hp, List.filter_cons_of_pos (by simpa using hp),
        List.filter_eq_self.mpr hall]

/-- Walking up to one bound and then to a higher one is walking up to the higher one. -/
theorem dropWhile_dropWhile {p q : α → Bool} (hpq : ∀ x, p x = true → q x = true)
    (xs : List α) : (xs.dropWhile p).dropWhile q = xs.dropWhile q := by
  induction xs with
  | nil => rfl
  | cons x xs ih =>
    by_cases hp : p x = true
    · rw [List.dropWhile_cons_of_pos hp, List.dropWhile_cons_of_pos (hpq x hp), ih]
    · rw [List.dropWhile_cons_of_neg hp]

/-- The smallest number only depends on which numbers there are. -/
theorem min?_congr {xs ys : List Nat} (h : ∀ x, x ∈ xs ↔ x ∈ ys) : xs.min? = ys.min? := by
  cases hx : xs.min? with
  | none =>
    rw [List.min?_eq_none_iff] at hx
    subst hx
    refine (List.min?_eq_none_iff.mpr (List.eq_nil_iff_forall_not_mem.mpr fun y hy => ?_)).symm
    exact absurd ((h y).mpr hy) List.not_mem_nil
  | some a =>
    obtain ⟨ha, hle⟩ := List.min?_eq_some_iff.mp hx
    exact (List.min?_eq_some_iff.mpr ⟨(h a).mp ha, fun b hb => hle b ((h b).mpr hb)⟩).symm

/-! ### Runs of equal entries -/

section Reps

variable [BEq τ]

theorem eraseReps_loop (xs : List τ) (a : τ) (acc : List τ) :
    List.eraseRepsBy.loop (· == ·) a xs acc = acc.reverse ++ (a :: xs).eraseReps := by
  have main : ∀ (xs : List τ) (a : τ) (acc : List τ),
      List.eraseRepsBy.loop (· == ·) a xs acc =
        acc.reverse ++ List.eraseRepsBy.loop (· == ·) a xs [] := by
    intro xs
    induction xs with
    | nil =>
      intro a acc
      simp [List.eraseRepsBy.loop]
    | cons b xs ih =>
      intro a acc
      cases hab : a == b with
      | true =>
        simp only [List.eraseRepsBy.loop, hab]
        exact ih a acc
      | false =>
        simp only [List.eraseRepsBy.loop, hab]
        rw [ih b (a :: acc), ih b [a]]
        simp
  exact main xs a acc

theorem eraseReps_cons_cons (a b : τ) (xs : List τ) :
    (a :: b :: xs).eraseReps =
      if a == b then (a :: xs).eraseReps else a :: (b :: xs).eraseReps := by
  show List.eraseRepsBy.loop (· == ·) a (b :: xs) [] = _
  cases hab : a == b with
  | true =>
    simp only [List.eraseRepsBy.loop, hab]
    exact eraseReps_loop xs a []
  | false =>
    simp only [List.eraseRepsBy.loop, hab]
    exact eraseReps_loop xs b [a]

variable [LawfulBEq τ]

theorem mem_eraseReps {x : τ} {xs : List τ} : x ∈ xs.eraseReps ↔ x ∈ xs := by
  cases xs with
  | nil => exact Iff.rfl
  | cons a xs =>
    induction xs generalizing a with
    | nil => exact Iff.rfl
    | cons b xs ih =>
      rw [eraseReps_cons_cons]
      cases hab : a == b with
      | true =>
        rw [if_pos rfl, ih, ← beq_iff_eq.mp hab]
        simp
      | false =>
        rw [if_neg (by simp), List.mem_cons, ih]
        exact List.mem_cons.symm

end Reps

/-! ### Sorting -/

section Order

variable [LinearOrder τ]

theorem pairwise_mergeSort_key (key : α → τ) (xs : List α) :
    (xs.mergeSort fun a b => !decide (key b < key a)).Pairwise fun a b => key a ≤ key b := by
  have hle : ∀ a b, (!decide (key b < key a)) = true ↔ key a ≤ key b := by
    intro a b
    simp
  have htrans : ∀ a b c, (!decide (key b < key a)) = true → (!decide (key c < key b)) = true →
      (!decide (key c < key a)) = true := by
    intro a b c hab hbc
    exact (hle a c).mpr (le_trans ((hle a b).mp hab) ((hle b c).mp hbc))
  have htotal : ∀ a b, (!decide (key b < key a) || !decide (key a < key b)) = true := by
    intro a b
    rw [Bool.or_eq_true, hle, hle]
    exact le_total (key a) (key b)
  exact (List.pairwise_mergeSort htrans htotal xs).imp fun hab => (hle _ _).mp hab

/-- Lists whose keys ascend strictly are equal when they have the same entries. -/
theorem ascending_ext {key : α → τ} {xs ys : List α} (hx : xs.Pairwise fun a b => key a < key b)
    (hy : ys.Pairwise fun a b => key a < key b) (h : ∀ a, a ∈ xs ↔ a ∈ ys) : xs = ys := by
  have : Std.Irrefl fun a b : α => key a < key b := ⟨fun _ => lt_irrefl _⟩
  have : Std.Antisymm fun a b : α => key a < key b := ⟨fun _ _ hab hba => absurd hab (lt_asymm hba)⟩
  exact hx.eq_of_mem_iff hy h

variable [BEq τ] [LawfulBEq τ]

theorem pairwise_eraseReps {xs : List τ} (h : xs.Pairwise (· ≤ ·)) :
    xs.eraseReps.Pairwise (· < ·) := by
  cases xs with
  | nil => exact List.Pairwise.nil
  | cons a xs =>
    induction xs generalizing a with
    | nil => exact List.pairwise_singleton _ _
    | cons b xs ih =>
      obtain ⟨ha, hb⟩ := List.pairwise_cons.mp h
      rw [eraseReps_cons_cons]
      cases hab : a == b with
      | true =>
        rw [if_pos rfl]
        refine ih a (List.pairwise_cons.mpr ⟨?_, (List.pairwise_cons.mp hb).2⟩)
        exact fun y hy => ha y (List.mem_cons_of_mem _ hy)
      | false =>
        rw [if_neg (by simp)]
        refine List.pairwise_cons.mpr ⟨fun y hy => ?_, ih b hb⟩
        have hne : a ≠ b := by
          rintro rfl
          simp at hab
        have hlt : a < b := lt_of_le_of_ne (ha b List.mem_cons_self) hne
        rcases List.mem_cons.mp (mem_eraseReps.mp hy) with rfl | hy
        · exact hlt
        · exact lt_of_lt_of_le hlt ((List.pairwise_cons.mp hb).1 y hy)

namespace Regroup

theorem mem_distinctSorted {x : τ} {xs : List τ} : x ∈ distinctSorted xs ↔ x ∈ xs := by
  unfold distinctSorted
  rw [mem_eraseReps, List.mem_mergeSort]

theorem pairwise_distinctSorted (xs : List τ) : (distinctSorted xs).Pairwise (· < ·) :=
  pairwise_eraseReps (pairwise_mergeSort_key id xs)

end Regroup

end Order

end Cohort
