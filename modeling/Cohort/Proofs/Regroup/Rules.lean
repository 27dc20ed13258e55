import Cohort.Proofs.Regroup.Feed
import Cohort.Proofs.Regroup.Sweep
import Cohort.Regroup.Rules

/-!
# Single-condition rules — what applying them ensures, and when they go through
-/

namespace Cohort.Regroup

open Pass

variable {feed : Feed} {g g' : Grouping} {rules : List Rule}

theorem maxGroup_le_of_forGroup? {group : Nat} {rule : Rule}
    (hr : Rule.forGroup? rules group = some rule) :
    rule.maxGroup ≤ (rules.map Rule.maxGroup).foldl max 0 :=
  le_foldl_max 0 (List.mem_map_of_mem (List.mem_of_find?_eq_some hr))

theorem ruleDestination_le {field : String} {isInt : Bool} {holds : Condition → Bool} {x y : Nat}
    (hy : ruleDestination rules field isInt holds x = some y) :
    y ≤ (rules.map Rule.maxGroup).foldl max 0 := by
  obtain ⟨rule, hr, hy⟩ := Option.bind_eq_some_iff.mp hy
  split_ifs at hy
  cases hy
  exact Nat.le_trans (Nat.le_max_right _ _) (maxGroup_le_of_forGroup? hr)

theorem negative_le (rules : List Rule) (x : Nat) :
    ((Rule.forGroup? rules x).map (·.negative)).getD 0 ≤ (rules.map Rule.maxGroup).foldl max 0 := by
  cases hr : Rule.forGroup? rules x with
  | none => exact Nat.zero_le _
  | some rule => exact Nat.le_trans (Nat.le_max_left _ _) (maxGroup_le_of_forGroup? hr)

/-- Both kinds of fields are visited before the rest is sent to the negative groups. -/
theorem overwrites_fields {P : Nat → Prop} (hP : ∀ x ≤ (rules.map Rule.maxGroup).foldl max 0, P x)
    {ints strings : List String} {m m1 m2 : Marking}
    (h1 : ints.foldlM (visitIntField? feed rules) m = some m1)
    (h2 : strings.foldlM (visitStringField? feed rules) m1 = some m2) :
    m.grouping.Overwrites P m2.grouping := by
  have hint : m.grouping.Overwrites P m1.grouping := by
    refine Marking.overwrites_foldlM (fun field _ t t' ht => ?_) h1
    refine Marking.overwrites_foldlM (fun e _ u u' hu => ?_) ht
    exact Marking.overwrites_visitAll? (fun x y hy => hP y (ruleDestination_le hy)) hu
  have hstring : m1.grouping.Overwrites P m2.grouping := by
    refine Marking.overwrites_foldlM (fun field _ t t' ht => ?_) h2
    refine Marking.overwrites_foldlM (fun e _ u u' hu => ?_) ht
    exact Marking.overwrites_visitAll? (fun x y hy => hP y (ruleDestination_le hy)) hu
  exact hint.trans hstring

/-- Documents only move to groups of the rules, or to group 0. -/
theorem overwrites_applyRules? {P : Nat → Prop}
    (hP : ∀ x ≤ (rules.map Rule.maxGroup).foldl max 0, P x)
    (hg : applyRules? feed rules g = some g') : g.Overwrites P g' := by
  obtain ⟨m1, hm1, hg⟩ := Option.bind_eq_some_iff.mp hg
  obtain ⟨m2, hm2, hg⟩ := Option.bind_eq_some_iff.mp hg
  exact (overwrites_fields hP hm1 hm2).trans
    (Marking.overwrites_finish? (fun x => .inr (hP _ (negative_le rules x))) hg)

/-! ### When they go through -/

/-- The visits of one field, of either type. -/
theorem exists_fieldVisits (feed : Feed) {τ : Type} [LinearOrder τ] {p : Postings τ} {m : Marking}
    (hp : p.Ascending g.len) (hm : m.Over g) (tests : List (τ × Bool)) (field : String)
    (isInt : Bool) (holds : τ → Condition → Bool)
    (haccepts : ∀ x ≤ (rules.map Rule.maxGroup).foldl max 0, g.Accepts x) :
    ∃ m', ((TermSelection.ofConditions tests).visits p).foldlM
      (fun (m : Marking) e =>
        m.visitAll? feed.chunk (ruleDestination rules field isInt (holds e.1)) e.2) m = some m' ∧
      m'.Over g := by
  refine exists_foldlM_of (Marking.Over g) hm fun e he t ht => ?_
  exact ht.exists_visitAll? feed.chunk (fun x y hy => haccepts y (ruleDestination_le hy))
    (hp.docs_lt e (mem_of_mem_visits hp.terms he))

theorem exists_applyRules? (hs : feed.shard.Ascending) (hlen : feed.numDocs = g.len)
    (hg : g.All g.Accepts)
    (haccepts : ∀ x ≤ (rules.map Rule.maxGroup).foldl max 0, g.Accepts x) :
    ∃ g', applyRules? feed rules g = some g' := by
  have hdocs : feed.shard.numDocs = g.len := hlen
  obtain ⟨m1, hm1, hover1⟩ := exists_foldlM_of (Marking.Over g) (Marking.over_start hlen)
    fun field (_ : field ∈ fieldNames true (rules.map (·.condition))) m hm =>
      exists_fieldVisits feed (hdocs ▸ hs.intPostings field) hm
        (intTests field (rules.map (·.condition))) field true (fun v c => c.matchesInt v) haccepts
  obtain ⟨m2, hm2, hover2⟩ := exists_foldlM_of (Marking.Over g) hover1
    fun field (_ : field ∈ fieldNames false (rules.map (·.condition))) m hm =>
      exists_fieldVisits feed (hdocs ▸ hs.stringPostings field) hm
        (stringTests field (rules.map (·.condition))) field false (fun v c => c.matchesString v)
        haccepts
  have hall : m2.grouping.All g.Accepts := (overwrites_fields haccepts hm1 hm2).all hg
  obtain ⟨g', hg'⟩ := hover2.exists_finish? feed.chunk hall
    fun x => .inr (haccepts _ (negative_le rules x))
  refine ⟨g', ?_⟩
  show (List.foldlM (visitIntField? feed rules) _ _ >>= _) = _
  rw [show List.foldlM (visitIntField? feed rules) _ _ = some m1 from hm1]
  show (List.foldlM (visitStringField? feed rules) _ _ >>= _) = _
  rw [show List.foldlM (visitStringField? feed rules) _ _ = some m2 from hm2]
  exact hg'

/-- Rules go through if they send no document to the largest id. -/
theorem concludes_byRules (hg : g.Counted feed.numDocs) (hs : feed.shard.Ascending)
    (rules : List Rule) :
    Concludes (byRules feed rules) g (fun _ g' => g.Grown g')
      (∃ r ∈ rules, maxId ≤ r.maxGroup) := by
  refine concludes_unlessFilteredOut hg fun _ => completes_scratch ?_ fun _ => g.grown_refl
  refine completes_bind (completes_orRefused (fun live hlive => ?_) fun _ _ => g.grown_refl)
  have htop : (¬ ∃ r ∈ rules, maxId ≤ r.maxGroup) →
      (live.map Rule.maxGroup).foldl max 0 < maxId := by
    intro hb
    obtain ⟨_, -, hfilter⟩ := exists_of_bind_ok hlive
    cases hfilter
    refine foldl_max_lt (by decide) fun x hx => ?_
    obtain ⟨r, hr, rfl⟩ := List.mem_map.mp hx
    exact Nat.lt_of_not_le fun h => hb ⟨r, List.mem_of_mem_filter hr, h⟩
  refine completes_bind (completes_makeRoom hg ?_ fun _ => g.grown_refl)
  refine completes_scratch ?_ fun _ => g.grown_roomFor _
  refine concludes_rewrite hg (Nat.le_refl _) htop
    (fun g' hg' => overwrites_applyRules? (fun _ hx => hx) hg') fun _ haccepts => ?_
  exact exists_applyRules? hs ((Grouping.len_roomFor g _).trans hg.len_eq).symm
    (hg.roomFor_accepts _) haccepts

end Cohort.Regroup
