import Cohort.Proofs.Regroup.Collisions
import Cohort.Proofs.Session.Progress

/-!
# Outcomes of rules — which rule lists a session takes

What a regroup by rules comes to is settled by the rules and the documents alone, as long as there
is memory and the conditions can be numbered. Past the ids, the two ways to apply rules part.
-/

namespace Cohort

namespace Live

open MultiRule (Unfit)
open Regroup (Colliding)

variable {shard : Shard} {config : Config} {x : Live}

/-! ### Multi-condition rules -/

/-- How a regroup by multi-condition rules ends, and for what reasons. -/
theorem Reachable.ends_regroupMulti (h : Reachable shard config x) (hb : shard.Built)
    (rules : List MultiRule) (errorOnCollisions : Bool) :
    Ends (Session.regroupMulti rules errorOnCollisions) x.session
      (fun _ _ => (1 < x.session.numGroups → ¬ Unfit rules) ∧
        ¬ ∃ doc group, Colliding shard rules errorOnCollisions x.session.grouping doc group)
      (OnFailure
        (fun e _ => (∃ shortage, e = .outOfMemory shortage) ∨
          (1 < x.session.numGroups ∧ Unfit rules ∧ ∃ cause, e = .invalidArgument cause) ∨
          (¬ Unfit rules ∧ ∃ doc group, e = .illegalState (.splitCollision doc group) ∧
            Colliding shard rules errorOnCollisions x.session.grouping doc group))
        ((∃ r ∈ rules, maxId ≤ r.maxGroup) ∨ maxId ≤ MultiRule.numConditions rules)) := by
  have hg := h.counted hb
  have hends : Ends (Session.regroupMulti rules errorOnCollisions) x.session _ _ :=
    Call.ends_regroup_of_completes h.sound fun _ _ =>
      (Regroup.completes_byMultiRules hg hb.ascending h.bufferSize_pos rules errorOnCollisions).and
      (Regroup.concludes_byMultiRules hg hb.ascending h.bufferSize_pos rules errorOnCollisions)
  refine hends.mono (fun n s' hok => hok.1.1) ?_
  rintro (e | _) s' he
  · exact he.1
  · exact he.2

/-- As long as there is memory, multi-condition rules whose conditions can be numbered are refused
for a bad argument if they are unfit, and for the state of the session if documents collide that
must not; otherwise they go through. The cases exclude each other. -/
theorem Reachable.multi_refusals (h : Reachable shard config x) (hb : shard.Built)
    {rules : List MultiRule} {errorOnCollisions : Bool} (hn : 1 < x.session.numGroups)
    (hmax : ∀ r ∈ rules, r.maxGroup < maxId) (hcount : MultiRule.numConditions rules < maxId)
    (hmemory : ∀ shortage s', Session.regroupMulti rules errorOnCollisions x.session ≠
      .error (.refused (.outOfMemory shortage)) s') :
    (Unfit rules ∧ ∃ cause s', Session.regroupMulti rules errorOnCollisions x.session =
      .error (.refused (.invalidArgument cause)) s') ∨
    (¬ Unfit rules ∧ ∃ doc group s',
      Colliding shard rules errorOnCollisions x.session.grouping doc group ∧
      Session.regroupMulti rules errorOnCollisions x.session =
        .error (.refused (.illegalState (.splitCollision doc group))) s') ∨
    (¬ Unfit rules ∧
      (¬ ∃ doc group, Colliding shard rules errorOnCollisions x.session.grouping doc group) ∧
      ∃ n s', Session.regroupMulti rules errorOnCollisions x.session = .ok n s') := by
  have hends := h.ends_regroupMulti hb rules errorOnCollisions
  cases hrun : Session.regroupMulti rules errorOnCollisions x.session with
  | ok n s' =>
    obtain ⟨hfit, hnone⟩ := hends.ok_of hrun
    exact .inr (.inr ⟨hfit hn, hnone, n, s', rfl⟩)
  | error e s' =>
    have he := hends.err_of hrun
    cases e with
    | broken =>
      rcases he with ⟨r, hr, hle⟩ | hle
      · exact absurd (hmax r hr) (Nat.not_lt_of_le hle)
      · exact absurd hcount (Nat.not_lt_of_le hle)
    | refused e =>
      obtain ⟨shortage, rfl⟩ | ⟨-, hunfit, cause, rfl⟩ | ⟨hfit, doc, group, rfl, hcolliding⟩ := he
      · exact absurd hrun (hmemory shortage s')
      · exact .inl ⟨hunfit, cause, s', rfl⟩
      · exact .inr (.inl ⟨hfit, doc, group, s', hcolliding, rfl⟩)

/-- Two documents; the first is of age 10 and of age 20. -/
def aging : Shard := ⟨2, [("age", ⟨[(10, [0]), (20, [0, 1])]⟩)], []⟩

theorem built_aging : aging.Built := by
  have h0 : (⟨2, [], []⟩ : Shard).Built := .empty (show Shard.empty? 2 = _ from rfl)
  have h1 := h0.int (show Shard.addInt? _ "age" 0 10 = some _ from rfl)
  have h2 := h1.int (show Shard.addInt? _ "age" 0 20 = some _ from rfl)
  exact h2.int (show Shard.addInt? _ "age" 1 20 = some aging from rfl)

/-- A session over `aging` before any request. -/
def openedAging : Session := { opened 1000 with shard := aging, grouping := .constant 1 2 }

theorem reachable_openedAging : Reachable aging narrow ⟨openedAging, 0⟩ :=
  .start (Memory.Ledger.coherent_fresh 1000 none) rfl

/-- Asks for age 10 twice; that is no collision, but age 20 is another term. -/
def tenOrTwenty : MultiRule :=
  ⟨1, 0, [2, 2, 3], [⟨"age", .int 10, false⟩, ⟨"age", .int 10, false⟩, ⟨"age", .int 20, false⟩]⟩

theorem Reachable.multi_refusals_aging :
    (∃ s', Session.regroupMulti [tenOrTwenty] true openedAging =
      .error (.refused (.illegalState (.splitCollision 0 1))) s') ∧
    ¬ Unfit [tenOrTwenty] ∧ Colliding aging [tenOrTwenty] true (.constant 1 2) 0 1 := by
  obtain ⟨s', hrun⟩ : ∃ s', Session.regroupMulti [tenOrTwenty] true openedAging =
      .error (.refused (.illegalState (.splitCollision 0 1))) s' := ⟨_, by cbv⟩
  refine ⟨⟨s', hrun⟩, ?_⟩
  rcases Reachable.multi_refusals reachable_openedAging built_aging (by decide)
    (show ∀ r ∈ [tenOrTwenty], r.maxGroup < maxId by decide)
    (show MultiRule.numConditions [tenOrTwenty] < maxId by decide)
    (fun _ _ hshort => by cases hrun.symm.trans hshort) with
    ⟨-, _, _, hother⟩ | ⟨hfit, doc, group, _, hcolliding, hsame⟩ | ⟨-, -, _, _, hother⟩
  · cases hrun.symm.trans hother
  · cases hrun.symm.trans hsame
    exact ⟨hfit, hcolliding⟩
  · cases hrun.symm.trans hother

/-- More conditions than ids break the call, whatever else is wrong with the rules. -/
theorem Reachable.regroupMulti_overflow (h : Reachable shard config x) {rules : List MultiRule}
    {errorOnCollisions : Bool} (hn : 1 < x.session.numGroups)
    (hcount : maxId < MultiRule.conditionCountOf rules) :
    ∃ s', Session.regroupMulti rules errorOnCollisions x.session = .error .broken s' := by
  have hends : Ends (Session.regroupMulti rules errorOnCollisions) x.session _ _ :=
    Call.ends_regroup_of_completes h.sound fun _ _ =>
      Regroup.completes_byMultiRules_overflow hn hcount
  cases hrun : Session.regroupMulti rules errorOnCollisions x.session with
  | ok n s' => exact (hends.ok_of hrun).1.elim
  | error e s' =>
    cases e with
    | broken => exact ⟨s', rfl⟩
    | refused e => exact (hends.err_of hrun).elim

/-- Without the bound on their conditions, rules that are fit do not go through, and rules that
share a target are not refused. -/
theorem multi_refusals_crowd :
    Reachable ages narrow ⟨opened (wordBound - 1), 0⟩ ∧
    (∀ r ∈ [crowd maxId, onlyTwenty], r.maxGroup < maxId) ∧
    (¬ Unfit [crowd maxId] ∧ ∃ s', Session.regroupMulti [crowd maxId] false
      (opened (wordBound - 1)) = .error .broken s') ∧
    (Unfit [crowd maxId, onlyTwenty] ∧ ∃ s', Session.regroupMulti [crowd maxId, onlyTwenty] false
      (opened (wordBound - 1)) = .error .broken s') := by
  have hreach : Reachable ages narrow ⟨opened (wordBound - 1), 0⟩ :=
    .start (Memory.Ledger.coherent_fresh (wordBound - 1) none) rfl
  obtain ⟨n, hn⟩ : ∃ n, n + 1 = maxId := ⟨maxId - 1, rfl⟩
  have hmax : (crowd (n + 1)).maxGroup < maxId := by
    rw [maxGroup_crowd]
    decide
  have hfit : ¬ Unfit [crowd (n + 1)] := by
    rcases MultiRule.checkMultiRules_cases [crowd (n + 1)] with ⟨_, -, hfit⟩ | ⟨_, herr, -⟩
    · exact hfit
    · cases (checkMultiRules_crowd n).symm.trans herr
  have hshared : Unfit [crowd (n + 1), onlyTwenty] := by
    refine .shared fun hnodup => ?_
    exact (List.nodup_cons.mp hnodup).1 (List.mem_singleton.mpr rfl)
  have hcount : maxId < MultiRule.conditionCountOf [crowd (n + 1), onlyTwenty] := by
    show maxId < (List.replicate (n + 1) _).length % halfWordBound + 1
    rw [List.length_replicate, hn, mod_halfWordBound (Nat.le_refl _)]
    exact Nat.lt_succ_self _
  have hrun := regroupMulti_crowd hn
  have hrun' : ∃ s', Session.regroupMulti [crowd (n + 1), onlyTwenty] false
      (opened (wordBound - 1)) = .error .broken s' :=
    hreach.regroupMulti_overflow (by decide) hcount
  rw [hn] at hmax hfit hshared hrun hrun'
  refine ⟨hreach, fun r hr => ?_, ⟨hfit, hrun⟩, hshared, hrun'⟩
  rcases List.mem_pair.mp hr with rfl | rfl
  · exact hmax
  · decide

/-! ### Single-condition rules -/

theorem numConditions_toMulti (rules : List Rule) :
    MultiRule.numConditions (rules.map Rule.toMulti) = rules.length := by
  induction rules with
  | nil => rfl
  | cons r rules ih =>
    show 1 + MultiRule.numConditions (rules.map Rule.toMulti) = _
    rw [ih, List.length_cons, Nat.add_comm]

theorem conditionCountOf_toMulti (rules : List Rule) :
    MultiRule.conditionCountOf (rules.map Rule.toMulti) = rules.length := by
  induction rules with
  | nil => rfl
  | cons r rules ih =>
    show 1 + MultiRule.conditionCountOf (rules.map Rule.toMulti) = _
    rw [ih, List.length_cons, Nat.add_comm]

/-- How a regroup by single-condition rules ends, and for what reasons. -/
theorem Reachable.ends_regroupRules (h : Reachable shard config x) (hb : shard.Built)
    (rules : List Rule) :
    Ends (Session.regroupRules rules) x.session
      (fun _ _ => 1 < x.session.numGroups → ¬ Rule.Unfit rules)
      (OnFailure
        (fun e _ => (∃ shortage, e = .outOfMemory shortage) ∨
          (1 < x.session.numGroups ∧ Rule.Unfit rules ∧ ∃ cause, e = .invalidArgument cause))
        (∃ r ∈ rules, maxId ≤ r.maxGroup)) := by
  have hg := h.counted hb
  have hends : Ends (Session.regroupRules rules) x.session _ _ :=
    Call.ends_regroup_of_completes h.sound fun _ _ =>
      (Regroup.completes_byRules hg rules).and
        (Regroup.concludes_byRules hg hb.ascending rules)
  refine hends.mono (fun n s' hok => hok.1.1) ?_
  rintro (e | _) s' he
  · exact he.1
  · exact he.2

/-- How the converted rules are applied, as long as their conditions can be numbered: nothing
breaks, and as no collision is forbidden, unfit rules are all that is refused. -/
theorem Reachable.outcome_toMulti (h : Reachable shard config x) (hb : shard.Built)
    {rules : List Rule} (hmax : ∀ r ∈ rules, r.maxGroup < maxId) (hcount : rules.length < maxId)
    (hmemory : ∀ shortage s', Session.regroupMulti (rules.map Rule.toMulti) false x.session ≠
      .error (.refused (.outOfMemory shortage)) s') :
    (1 < x.session.numGroups ∧ Rule.Unfit rules ∧ ∃ cause s',
      Session.regroupMulti (rules.map Rule.toMulti) false x.session =
        .error (.refused (.invalidArgument cause)) s') ∨
    ((1 < x.session.numGroups → ¬ Rule.Unfit rules) ∧ ∃ m t,
      Session.regroupMulti (rules.map Rule.toMulti) false x.session = .ok m t) := by
  have hends := h.ends_regroupMulti hb (rules.map Rule.toMulti) false
  rw [Rule.unfit_toMulti, numConditions_toMulti] at hends
  cases hrun : Session.regroupMulti (rules.map Rule.toMulti) false x.session with
  | ok m t => exact .inr ⟨(hends.ok_of hrun).1, m, t, rfl⟩
  | error e t =>
    have he := hends.err_of hrun
    cases e with
    | broken =>
      rcases he with ⟨r, hr, hle⟩ | hle
      · obtain ⟨r, hmem, rfl⟩ := List.mem_map.mp hr
        exact absurd (hmax r hmem) (Nat.not_lt_of_le hle)
      · exact absurd hcount (Nat.not_lt_of_le hle)
    | refused e =>
      obtain ⟨shortage, rfl⟩ | ⟨hn, hunfit, cause, rfl⟩ | ⟨-, doc, group, -, hcolliding⟩ := he
      · exact absurd hrun (hmemory shortage t)
      · exact .inl ⟨hn, hunfit, cause, t, rfl⟩
      · cases hcolliding.forbidden

/-- Both ways that rules go through move every document alike. -/
theorem Reachable.same_toMulti (h : Reachable shard config x) (hb : shard.Built)
    {rules : List Rule} {n m : Nat} {s' t : Session}
    (hrun : Session.regroupRules rules x.session = .ok n s')
    (hrun' : Session.regroupMulti (rules.map Rule.toMulti) false x.session = .ok m t) :
    t.grouping.toList = s'.grouping.toList ∧ (0 < shard.numDocs → m = n) := by
  obtain ⟨-, happ⟩ := (Session.serves_regroupRules h.sound rules).ok_of hrun
  obtain ⟨-, happ'⟩ := (Session.serves_regroupMulti h.sound _ false).ok_of hrun'
  have hsame : t.grouping.toList = s'.grouping.toList :=
    Option.some.inj ((happ'.meaning hb.ascending h.bufferSize_pos).symm.trans
      (happ.meaning hb.ascending h.bufferSize_pos))
  refine ⟨hsame, fun hdocs => ?_⟩
  rw [← happ.numGroups_eq, ← happ'.numGroups_eq, ← Meaning.numGroups_toList happ.wellFormed hdocs,
    ← Meaning.numGroups_toList happ'.wellFormed hdocs, hsame]

/-- Rules with one condition each may be applied either way, as long as there is memory and their
conditions can be numbered: both calls refuse the rules for a bad argument, which is when a target
is 0 or shared and there is a group left to move, or both move every document as the rules mean.
Where there are documents, they also report the same number of groups. -/
theorem Reachable.rules_interchange (h : Reachable shard config x) (hb : shard.Built)
    {rules : List Rule} (hmax : ∀ r ∈ rules, r.maxGroup < maxId) (hcount : rules.length < maxId)
    (hmemory : ∀ shortage s', Session.regroupRules rules x.session ≠
      .error (.refused (.outOfMemory shortage)) s')
    (hmemory' : ∀ shortage s', Session.regroupMulti (rules.map Rule.toMulti) false x.session ≠
      .error (.refused (.outOfMemory shortage)) s') :
    (1 < x.session.numGroups ∧ Rule.Unfit rules ∧
      (∃ cause s', Session.regroupRules rules x.session =
        .error (.refused (.invalidArgument cause)) s') ∧
      ∃ cause s', Session.regroupMulti (rules.map Rule.toMulti) false x.session =
        .error (.refused (.invalidArgument cause)) s') ∨
    (¬ (1 < x.session.numGroups ∧ Rule.Unfit rules) ∧
      ∃ n s', Session.regroupRules rules x.session = .ok n s' ∧
      Meaning.rules? shard x.session.grouping.toList rules = some s'.grouping.toList ∧
      ∃ m t, Session.regroupMulti (rules.map Rule.toMulti) false x.session = .ok m t ∧
        t.grouping.toList = s'.grouping.toList ∧ (0 < shard.numDocs → m = n)) := by
  have hends := h.ends_regroupRules hb rules
  have hmulti := h.outcome_toMulti hb hmax hcount hmemory'
  -- the first call tells the case, and the other one has to follow
  cases hrun : Session.regroupRules rules x.session with
  | error e s' =>
    have he := hends.err_of hrun
    cases e with
    | broken =>
      obtain ⟨r, hr, hle⟩ := he
      exact absurd (hmax r hr) (Nat.not_lt_of_le hle)
    | refused e =>
      obtain ⟨shortage, rfl⟩ | ⟨hn, hunfit, cause, rfl⟩ := he
      · exact absurd hrun (hmemory shortage s')
      · obtain ⟨-, -, hrefused⟩ | ⟨hfit, -⟩ := hmulti
        · exact .inl ⟨hn, hunfit, ⟨cause, s', rfl⟩, hrefused⟩
        · exact absurd hunfit (hfit hn)
  | ok n s' =>
    have hfit := hends.ok_of hrun
    obtain ⟨-, happ⟩ := (Session.serves_regroupRules h.sound rules).ok_of hrun
    obtain ⟨hn, hunfit, -⟩ | ⟨-, m, t, hrun'⟩ := hmulti
    · exact absurd hunfit (hfit hn)
    · exact .inr ⟨fun hbad => hfit hbad.1 hbad.2, n, s', rfl,
        happ.meaning hb.ascending h.bufferSize_pos, m, t, hrun', h.same_toMulti hb hrun hrun'⟩

/-- Age 10 goes from group 1 to group 2; the rule for group 7, which nobody is in, does nothing. -/
def youngest : List Rule := [⟨7, ⟨"age", .int 10, false⟩, 9, 9⟩, ⟨1, ⟨"age", .int 10, true⟩, 3, 2⟩]

theorem Reachable.rules_interchange_youngest :
    ∃ n s' m t, Session.regroupRules youngest (opened 1000) = .ok n s' ∧
      Session.regroupMulti (youngest.map Rule.toMulti) false (opened 1000) = .ok m t ∧
      Meaning.rules? ages [1, 1, 1] youngest = some s'.grouping.toList ∧
      t.grouping.toList = s'.grouping.toList ∧ m = n := by
  obtain ⟨n, s', hrun⟩ : ∃ n s', Session.regroupRules youngest (opened 1000) = .ok n s' :=
    ⟨_, _, by cbv⟩
  obtain ⟨m, t, hrun'⟩ : ∃ m t,
      Session.regroupMulti (youngest.map Rule.toMulti) false (opened 1000) = .ok m t :=
    ⟨_, _, by cbv⟩
  rcases Reachable.rules_interchange reachable_opened built_ages
    (show ∀ r ∈ youngest, r.maxGroup < maxId by decide) (by decide)
    (fun _ _ hshort => by cases hrun.symm.trans hshort)
    (fun _ _ hshort => by cases hrun'.symm.trans hshort) with
    ⟨-, -, ⟨_, _, hother⟩, -⟩ | ⟨-, _, _, hsame, hmeaning, _, _, hsame', hgroups, hcount⟩
  · cases hrun.symm.trans hother
  · exact ⟨_, _, _, _, hsame, hsame', hmeaning, hgroups, hcount (by decide)⟩

/-- A rule that would keep group 1. -/
def keeper : Rule := ⟨1, ⟨"age", .int 10, false⟩, 1, 1⟩

/-- A session over no documents at all. -/
def openedEmpty : Session := { opened 1000 with shard := ⟨0, [], []⟩, grouping := .constant 1 0 }

theorem regroupRules_keepers (n : Nat) : ∃ cause s',
    Session.regroupRules (List.replicate (n + 2) keeper) (opened 1000) =
      .error (.refused (.invalidArgument cause)) s' := ⟨_, _, rfl⟩

/-- Without the bound on the rules, only one of the two ways refuses rules for the same group. And
without documents, the two report different numbers of groups. -/
theorem rules_interchange_keepers :
    (Rule.Unfit (List.replicate halfWordBound keeper) ∧
      (∃ cause s', Session.regroupRules (List.replicate halfWordBound keeper) (opened 1000) =
        .error (.refused (.invalidArgument cause)) s') ∧
      ∃ s', Session.regroupMulti ((List.replicate halfWordBound keeper).map Rule.toMulti) false
        (opened 1000) = .error .broken s') ∧
    Reachable ⟨0, [], []⟩ narrow ⟨openedEmpty, 0⟩ ∧
    (∃ s', Session.regroupRules [keeper] openedEmpty = .ok 1 s') ∧
    ∃ s', Session.regroupMulti [keeper.toMulti] false openedEmpty = .ok 2 s' := by
  obtain ⟨n, hn⟩ : ∃ n, n + 2 = halfWordBound := ⟨halfWordBound - 2, rfl⟩
  have hshared : Rule.Unfit (List.replicate (n + 2) keeper) := by
    refine .shared fun hnodup => ?_
    exact (List.nodup_cons.mp hnodup).1 List.mem_cons_self
  have hcount : maxId < MultiRule.conditionCountOf
      ((List.replicate (n + 2) keeper).map Rule.toMulti) := by
    rw [conditionCountOf_toMulti, List.length_replicate, hn]
    decide
  have hrefused := regroupRules_keepers n
  have hbroken : ∃ s', Session.regroupMulti ((List.replicate (n + 2) keeper).map Rule.toMulti) false
      (opened 1000) = .error .broken s' :=
    reachable_opened.regroupMulti_overflow (by decide) hcount
  rw [hn] at hshared hrefused hbroken
  refine ⟨⟨hshared, hrefused, hbroken⟩, ?_, ⟨_, by cbv⟩, _, rfl⟩
  exact .start (Memory.Ledger.coherent_fresh 1000 none) rfl

end Live

end Cohort
