import Cohort.Proofs.Shard

/-!
# Cursors — what a walk over the terms shows

A cursor that was reset visits the terms from there on, and a seek finds a term that is there
wherever the cursor stood.
-/

namespace Cohort.Cursor

variable {τ : Type}

/-- The entries that a cursor passes from where it stands, as long as there is a next one. -/
def visits (c : Cursor τ) : List (τ × List Nat) :=
  match _h : c.next? with
  | none => []
  | some c' => c'.current?.toList ++ c'.visits
termination_by c.postings.entries.length - c.position
decreasing_by
  unfold next? at _h
  split_ifs at _h
  cases _h
  simp only
  omega

theorem visits_eq (c : Cursor τ) : c.visits = c.postings.entries.drop c.position := by
  fun_induction visits c with
  | case1 c hnext =>
    have hend : ¬ c.position < c.postings.entries.length := by
      intro hlt
      rw [next?, if_pos hlt] at hnext
      cases hnext
    exact (List.drop_eq_nil_of_le (Nat.le_of_not_lt hend)).symm
  | case2 c c' hnext ih =>
    unfold next? at hnext
    split_ifs at hnext with hlt
    cases hnext
    have hentry : (Cursor.mk c.postings (c.position + 1)).current? =
        some c.postings.entries[c.position] := List.getElem?_eq_getElem hlt
    rw [ih, hentry, List.drop_eq_getElem_cons hlt]
    rfl

theorem drop_reset [LinearOrder τ] (c : Cursor τ) (t : τ) :
    c.postings.entries.drop (c.reset t).position = c.postings.startingAt t := by
  show c.postings.entries.drop (c.postings.entries.takeWhile (·.1 < t)).length = _
  unfold Postings.startingAt
  conv_lhs =>
    enter [2]
    rw [← List.takeWhile_append_dropWhile (p := (·.1 < t)) (l := c.postings.entries)]
  exact List.drop_left

/-- After a reset, those with a term from the given one on. -/
theorem visits_reset [LinearOrder τ] {p : Postings τ} {numDocs : Nat} (hp : p.Ascending numDocs)
    (position : Nat) (t : τ) :
    ((mk p position).reset t).visits = p.entries.filter fun e => t ≤ e.1 := by
  rw [visits_eq]
  refine (drop_reset (mk p position) t).trans ?_
  rw [Postings.startingAt_eq hp.terms]
  refine List.filter_congr fun e _ => ?_
  rw [← decide_not, decide_eq_decide]
  exact not_lt

/-- Wherever a cursor stands, it finds the documents of a term that is there. -/
theorem seekExact_eq [LinearOrder τ] (c : Cursor τ) (t : τ) :
    ∃ position, c.seekExact t = (mk c.postings position, c.postings.find? t) := by
  have hdrop := drop_reset c t
  have hentries : (c.reset t).postings = c.postings := rfl
  unfold seekExact Postings.find? next?
  rw [hentries]
  cases hat : c.postings.startingAt t with
  | nil =>
    rw [hat, List.drop_eq_nil_iff] at hdrop
    rw [if_neg (Nat.not_lt_of_le hdrop)]
    exact ⟨_, rfl⟩
  | cons e rest =>
    rw [hat] at hdrop
    have hget : c.postings.entries[(c.reset t).position]? = some e := by
      rw [← List.head?_drop, hdrop, List.head?_cons]
    obtain ⟨hlt, -⟩ := List.getElem?_eq_some_iff.mp hget
    have hcurrent : (mk c.postings ((c.reset t).position + 1)).current? = some e := hget
    rw [if_pos hlt]
    exact ⟨(c.reset t).position + 1, by simp only [hcurrent, Option.bind_some]⟩

end Cohort.Cursor
