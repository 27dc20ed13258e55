import Mathlib.Tactic.SplitIfs
import Cohort.Regex.Matcher

/-!
# Where matches end — within the text

`Node.reach_le` says that no match runs past the end of the text.
-/

namespace Cohort.Regex

variable {step : List Nat → List Nat} {P : Nat → Prop} {ps qs : List Nat}

theorem mem_merge {i : Nat} : i ∈ merge ps qs ↔ i ∈ ps ∨ i ∈ qs := by
  unfold merge
  rw [List.mem_eraseDups, List.mem_append]

/-- What every step keeps of all positions is kept by many steps. -/
theorem iterate_forall (hstep : ∀ ps, (∀ i ∈ ps, P i) → ∀ i ∈ step ps, P i) (n : Nat)
    (h : ∀ i ∈ ps, P i) : ∀ i ∈ iterate step n ps, P i := by
  induction n generalizing ps with
  | zero => exact h
  | succ n ih =>
    unfold iterate
    dsimp only
    split_ifs
    · exact h
    · exact ih (hstep ps h)

theorem spread_forall (hstep : ∀ ps, (∀ i ∈ ps, P i) → ∀ i ∈ step ps, P i) (n : Nat)
    (h : ∀ i ∈ ps, P i) : ∀ i ∈ spread step n ps, P i := by
  induction n generalizing ps with
  | zero => exact h
  | succ n ih =>
    unfold spread
    dsimp only
    split_ifs
    · exact h
    · exact ih fun i hi => (mem_merge.mp hi).elim (h i) (hstep ps h i)

/-- No match runs past the end of the text. -/
theorem Node.reach_le (text : Array Char) (n : Node) {starts : List Nat}
    (h : ∀ i ∈ starts, i ≤ text.size) : ∀ i ∈ n.reach text starts, i ≤ text.size := by
  induction n generalizing starts with
  | empty => exact h
  | set s =>
    intro j hj
    obtain ⟨i, -, hi⟩ := List.mem_filterMap.mp hj
    split_ifs at hi with hset
    cases hi
    obtain ⟨c, hc, -⟩ := (Option.any_eq_true _ _).mp hset
    exact (Array.getElem?_eq_some_iff.mp hc).1
  | look l => exact fun i hi => h i (List.mem_filter.mp hi).1
  | seq a b iha ihb => exact ihb (iha h)
  | alt a b iha ihb => exact fun i hi => (mem_merge.mp hi).elim (iha h i) (ihb h i)
  | rep body min max greedy ih =>
    have hstep : ∀ ps, (∀ i ∈ ps, i ≤ text.size) → ∀ i ∈ body.reach text ps, i ≤ text.size :=
      fun ps hps => ih hps
    unfold Node.reach
    cases max with
    | none => exact spread_forall hstep _ (iterate_forall hstep min h)
    | some max => exact spread_forall hstep _ (iterate_forall hstep min h)
  | group _ body ih => exact ih h

end Cohort.Regex
