import Cohort.Proofs.DocSet
import Cohort.Proofs.Regroup.Feed

/-!
# Visits — the first offer is the one that counts

A marking pass is a loop over visits, each of one document with the destinations that one term has.
Its groups are written while later visits still read them. Yet a document goes where the first visit
sends it that offers its old group a destination: until then it is in that group, and afterwards no
visit moves it again. `Marked` is the invariant of the loop.
-/

namespace Cohort.Marking

variable {g g' : Grouping} {m m' : Marking} {doc group : Nat}
  {visits done : List (Nat × (Nat → Option Nat))} {v : Nat × (Nat → Option Nat)}

/-- The group that visits first offer to a document of `group`. -/
def offer? (visits : List (Nat × (Nat → Option Nat))) (doc group : Nat) : Option Nat :=
  visits.findSome? fun v => if v.1 = doc then v.2 group else none

theorem offer?_concat_self (done : List (Nat × (Nat → Option Nat)))
    (v : Nat × (Nat → Option Nat)) (group : Nat) :
    offer? (done ++ [v]) v.1 group = (offer? done v.1 group).or (v.2 group) := by
  unfold offer?
  rw [List.findSome?_append, List.findSome?_singleton, if_pos rfl]

theorem offer?_concat_other (done : List (Nat × (Nat → Option Nat))) (hd : v.1 ≠ doc)
    (group : Nat) : offer? (done ++ [v]) doc group = offer? done doc group := by
  unfold offer?
  rw [List.findSome?_append, List.findSome?_singleton, if_neg hd, Option.or_none]

/-- Where all offers are the same, it is enough to know whether there is one. -/
theorem offer?_eq_of_all {y : Nat} {P : Prop} [Decidable P]
    (hall : ∀ v ∈ visits, v.1 = doc → ∀ z, v.2 group = some z → z = y)
    (hex : (∃ v ∈ visits, v.1 = doc ∧ (v.2 group).isSome) ↔ P) :
    offer? visits doc group = if P then some y else none := by
  unfold offer?
  split_ifs with hP
  · obtain ⟨v, hv, rfl, hsome⟩ := hex.mpr hP
    cases hfind : visits.findSome? fun w => if w.1 = v.1 then w.2 group else none with
    | none =>
      have hnone := List.findSome?_eq_none_iff.mp hfind v hv
      rw [if_pos rfl] at hnone
      rw [hnone] at hsome
      cases hsome
    | some z =>
      obtain ⟨w, hw, hz⟩ := List.exists_of_findSome?_eq_some hfind
      split_ifs at hz with hdoc
      rw [hall w hw hdoc z hz]
  · refine List.findSome?_eq_none_iff.mpr fun v hv => ?_
    split_ifs with hdoc
    · by_contra hne
      exact hP (hex.mp ⟨v, hv, hdoc, Option.isSome_iff_ne_none.mpr hne⟩)
    · rfl

/-- Makes one visit. -/
def visitAt (m : Marking) (v : Nat × (Nat → Option Nat)) : Option Marking := m.visit? v.2 v.1

/-- What is known of a marking after the visits `done`. -/
structure Marked (g : Grouping) (done : List (Nat × (Nat → Option Nat))) (m : Marking) :
    Prop where
  sized : m.moved.Sized
  frame_eq : m.grouping.frame = g.frame
  contains_eq : ∀ d x, g.get? d = some x → m.moved.contains d = (offer? done d x).isSome
  get?_eq : ∀ d x, g.get? d = some x → m.grouping.get? d = some ((offer? done d x).getD x)

theorem marked_start (g : Grouping) (numDocs : Nat) : Marked g [] (start g numDocs) :=
  ⟨DocSet.sized_empty _, rfl, fun d _ _ => DocSet.contains_empty _ d, fun _ _ hx => hx⟩

theorem Marked.of_offer? (hm : Marked g done m)
    (h : ∀ d x, g.get? d = some x → offer? visits d x = offer? done d x) : Marked g visits m := by
  refine ⟨hm.sized, hm.frame_eq, fun d x hx => ?_, fun d x hx => ?_⟩
  · rw [h d x hx]
    exact hm.contains_eq d x hx
  · rw [h d x hx]
    exact hm.get?_eq d x hx

/-- A visit that leaves all as it was: the document was offered something before, or is not offered
anything now. -/
theorem Marked.step_idle (hm : Marked g done m) (hidle : m.moved.contains v.1 = true ∨
    ∃ x, m.grouping.get? v.1 = some x ∧ v.2 x = none) : Marked g (done ++ [v]) m := by
  refine hm.of_offer? fun d x hx => ?_
  by_cases hd : v.1 = d
  · subst hd
    rw [offer?_concat_self]
    cases hoffer : offer? done v.1 x with
    | some y => rfl
    | none =>
      rcases hidle with hmoved | ⟨z, hz, hnone⟩
      · rw [hm.contains_eq v.1 x hx, hoffer] at hmoved
        cases hmoved
      · rw [hm.get?_eq v.1 x hx, hoffer] at hz
        cases hz
        exact hnone
  · exact offer?_concat_other done hd x

/-- A document that was not moved was not offered anything so far, and is in its old group. -/
theorem Marked.of_not_moved (hm : Marked g done m) (hnew : m.moved.contains doc = false)
    (hx : m.grouping.get? doc = some group) :
    g.get? doc = some group ∧ offer? done doc group = none := by
  obtain ⟨x, hold⟩ : ∃ x, g.get? doc = some x := by
    refine Grouping.get?_of_lt_len ?_
    rw [← Grouping.len_eq_of_frame hm.frame_eq]
    exact Grouping.lt_len_of_get? hx
  have hnone : offer? done doc x = none := by
    rwa [hm.contains_eq doc x hold, Option.isSome_eq_false_iff, Option.isNone_iff_eq_none] at hnew
  have hget := hm.get?_eq doc x hold
  rw [hnone, Option.getD_none, hx] at hget
  obtain rfl := Option.some.inj hget
  exact ⟨hold, hnone⟩

/-- A visit that moves its document. -/
theorem Marked.step_moved (hm : Marked g done m) (hnew : m.moved.contains v.1 = false) {x y : Nat}
    (hx : m.grouping.get? v.1 = some x) (hy : v.2 x = some y)
    (hset : m.grouping.set? v.1 y = some m'.grouping)
    (hinsert : m.moved.insert? v.1 = some m'.moved) : Marked g (done ++ [v]) m' := by
  obtain ⟨hold, hnone⟩ := hm.of_not_moved hnew hx
  have hown : offer? (done ++ [v]) v.1 x = some y := by
    rw [offer?_concat_self, hnone, Option.none_or, hy]
  refine ⟨hm.sized.insert? hinsert, (Grouping.frame_set? hset).trans hm.frame_eq,
    fun d u hu => ?_, fun d u hu => ?_⟩
  · rw [DocSet.contains_insert? hm.sized hinsert]
    by_cases hd : v.1 = d
    · subst hd
      obtain rfl := Option.some.inj (hold.symm.trans hu)
      simp [hown]
    · rw [decide_eq_false (Ne.symm hd), Bool.or_false, offer?_concat_other done hd]
      exact hm.contains_eq d u hu
  · rw [Grouping.get?_set? hset]
    by_cases hd : v.1 = d
    · subst hd
      obtain rfl := Option.some.inj (hold.symm.trans hu)
      rw [if_pos rfl, hx, hown]
      rfl
    · rw [if_neg (Ne.symm hd), offer?_concat_other done hd]
      exact hm.get?_eq d u hu

/-- One more visit keeps the invariant. -/
theorem Marked.step (hm : Marked g done m) (h : m.visitAt v = some m') :
    Marked g (done ++ [v]) m' := by
  rcases visit?_cases h with ⟨rfl, hidle⟩ | ⟨hnew, x, y, hx, hy, hset, hinsert⟩
  · exact hm.step_idle hidle
  · exact hm.step_moved hnew hx hy hset hinsert

theorem Marked.run {numDocs : Nat} (h : visits.foldlM visitAt (start g numDocs) = some m) :
    Marked g visits m :=
  foldlM_induct (Marked g) (marked_start g numDocs) (fun _ _ _ _ _ _ ht hv => ht.step hv) h

/-- After all, a document is where the first offer sent it, or where `f` sends its group. -/
theorem Marked.get?_finish? (hm : Marked g visits m) {chunk : Nat} {f : Nat → Nat}
    (h : m.finish? chunk f = some g') (hx : g.get? doc = some group) :
    g'.get? doc = some ((offer? visits doc group).getD (f group)) := by
  rw [(Grouping.moves_of_mapGroups? h).get?, hm.get?_eq doc group hx, Option.bind_some,
    hm.contains_eq doc group hx]
  cases offer? visits doc group <;> rfl

end Cohort.Marking
