import Cohort.Proofs.Regroup.SplitMeaning
import Cohort.Proofs.Session.GroupZero
import Cohort.Proofs.Session.Rearrange

/-!
# Outcomes of splits — terms and queries move the same documents

A split by terms of a field and a split by a query that asks for any of these terms send every
document of the target to the same side, in whatever order the terms come, as long as not all
documents are filtered out: then neither does anything, not even for the documents of group 0.
-/

namespace Cohort

/-- Terms of one field, of which a document may hold any. -/
inductive AnyOf where
  | ints (field : String) (terms : List Int)
  | strings (field : String) (terms : List String)
  deriving DecidableEq, Repr

namespace AnyOf

/-- Splits a group by the terms themselves. -/
def regroup (split : Split) : AnyOf → Call Nat
  | ints field terms => Session.intOr field terms split
  | strings field terms => Session.stringOr field terms split

/-- Asks for documents with any of the terms. -/
def query : AnyOf → Query
  | ints field terms => .or (terms.map fun t => .term field (.int t))
  | strings field terms => .or (terms.map fun t => .term field (.str t))

/-- Splits a group by asking for them. -/
def rule (split : Split) (a : AnyOf) : QueryRule :=
  ⟨split.target, a.query, split.negative, split.positive⟩

/-- Document `doc` holds one of the terms. -/
def Holds (shard : Shard) (doc : Nat) : AnyOf → Prop
  | ints field terms => ∃ t ∈ terms, t ∈ shard.intValues field doc
  | strings field terms => ∃ t ∈ terms, t ∈ shard.stringValues field doc

variable {shard : Shard}

theorem satisfies_ints (shard : Shard) (doc : Nat) (field : String) (terms : List Int) :
    (ints field terms).query.satisfies shard doc =
      terms.any ((shard.intValues field doc).contains ·) := by
  rw [query, Query.satisfies_or, List.any_map]
  simp only [Function.comp_def, Query.satisfies]

theorem satisfies_strings (shard : Shard) (doc : Nat) (field : String) (terms : List String) :
    (strings field terms).query.satisfies shard doc =
      terms.any ((shard.stringValues field doc).contains ·) := by
  rw [query, Query.satisfies_or, List.any_map]
  simp only [Function.comp_def, Query.satisfies]

/-- The query asks for the documents that hold one of the terms. -/
theorem satisfies_query_iff (shard : Shard) (doc : Nat) (a : AnyOf) :
    a.query.satisfies shard doc = true ↔ a.Holds shard doc := by
  cases a with
  | ints field terms =>
    rw [satisfies_ints, List.any_eq_true]
    exact exists_congr fun t => and_congr_right fun _ => List.contains_iff_mem
  | strings field terms =>
    rw [satisfies_strings, List.any_eq_true]
    exact exists_congr fun t => and_congr_right fun _ => List.contains_iff_mem

instance (shard : Shard) (doc : Nat) : ∀ a : AnyOf, Decidable (a.Holds shard doc)
  | ints field terms => inferInstanceAs (Decidable (∃ t ∈ terms, t ∈ shard.intValues field doc))
  | strings field terms =>
    inferInstanceAs (Decidable (∃ t ∈ terms, t ∈ shard.stringValues field doc))

theorem destination_satisfies (a : AnyOf) (split : Split) (doc group : Nat) :
    split.destination (fun d => a.query.satisfies shard d) doc group =
      if group = split.target then
        if a.Holds shard doc then split.positive else split.negative
      else group := by
  unfold Split.destination
  simp only [satisfies_query_iff]

end AnyOf

namespace Call

variable {s : Session} {split : Split} {passes : Nat → Bool} {x y : Call Nat}

/-- The call ends as a split of the groups does, `Regroup.Splits`. -/
abbrev Splits (split : Split) (passes : Nat → Bool) : Call Nat → Session → Prop :=
  Rearranges (fun e => ∃ shortage, e = .outOfMemory shortage) (maxId < split.maxGroup)
    (split.destination passes)

theorem splits_of_splits {shard : Shard} {config : Config} {hand : Nat}
    {body : Session → Feed → Pass Nat} (hs : s.Sound shard config 1 hand)
    (h : ∀ t : Session,
      Regroup.Splits split passes (body t ⟨shard, config.bufferSize⟩) s.grouping) :
    Splits split passes (Session.regroup body) s :=
  rearranges_regroup hs fun t _ => h t

/-- Unless there is a lack of memory, both calls go through and come to the same, or both break at
a document that would be sent to the largest id. -/
theorem Splits.interchange (hx : Splits split passes x s) (hy : Splits split passes y s)
    (hmax : split.maxGroup ≤ maxId)
    (hmemory : ∀ shortage t, x s ≠ .error (.refused (.outOfMemory shortage)) t)
    (hmemory' : ∀ shortage t, y s ≠ .error (.refused (.outOfMemory shortage)) t) :
    (∃ n s' t, x s = .ok n s' ∧ y s = .ok n t ∧ t.grouping.toList = s'.grouping.toList) ∨
    ((∃ s', x s = .error .broken s') ∧ (∃ t, y s = .error .broken t) ∧
      ∃ d group, s.grouping.get? d = some group ∧ maxId ≤ split.destination passes d group) := by
  have hroom : ¬ maxId < split.maxGroup := Nat.not_lt_of_le hmax
  refine Rearranges.interchange hx hy hroom hroom (fun e t hr => ?_) fun e t hr => ?_
  · obtain ⟨shortage, rfl⟩ := hx.err_of hr
    exact hmemory shortage t hr
  · obtain ⟨shortage, rfl⟩ := hy.err_of hr
    exact hmemory' shortage t hr

end Call

namespace Live

variable {shard : Shard} {config : Config} {x : Live}

theorem Reachable.splits_regroup (h : Reachable shard config x) (hb : shard.Built) (a : AnyOf)
    (split : Split) :
    Call.Splits split (fun d => a.query.satisfies shard d) (a.regroup split) x.session := by
  have hg := h.counted hb
  cases a with
  | ints field terms =>
    simp only [AnyOf.satisfies_ints]
    unfold AnyOf.regroup Session.intOr
    exact Call.splits_of_splits h.sound fun _ =>
      Regroup.splits_byAny hg (hb.ascending.intPostings field) h.bufferSize_pos terms split
  | strings field terms =>
    simp only [AnyOf.satisfies_strings]
    unfold AnyOf.regroup Session.stringOr
    exact Call.splits_of_splits h.sound fun _ =>
      Regroup.splits_byAny hg (hb.ascending.stringPostings field) h.bufferSize_pos terms split

theorem Reachable.splits_regroupQuery (h : Reachable shard config x) (hb : shard.Built)
    (rule : QueryRule) :
    Call.Splits rule.split (fun d => rule.query.satisfies shard d) (Session.regroupQuery rule)
      x.session := by
  unfold Session.regroupQuery
  exact Call.splits_of_splits h.sound fun _ =>
    Regroup.splits_byQuery (h.counted hb) hb.ascending rule

/-- A split by terms that goes through sends every document of the target to the positive side if it
holds one of them, and to the negative side otherwise, unless all documents are filtered out; all
others stay. A split by a query for any of the terms is the same, as long as there is memory for
both: they lead to the same groups and to the same number, or both break at a document that would be
sent to the largest id. -/
theorem Reachable.split_meaning (h : Reachable shard config x) (hb : shard.Built) (a : AnyOf)
    {split : Split} (hmax : split.maxGroup ≤ maxId) :
    (∀ n s', a.regroup split x.session = .ok n s' →
      ∀ d < shard.numDocs, ∃ group, x.session.grouping.get? d = some group ∧
        s'.grouping.get? d = some
          (if group = split.target ∧ 1 < x.session.numGroups then
            if a.Holds shard d then split.positive else split.negative
          else group)) ∧
    ((∀ shortage t, a.regroup split x.session ≠ .error (.refused (.outOfMemory shortage)) t) →
      (∀ shortage t, Session.regroupQuery (a.rule split) x.session ≠
        .error (.refused (.outOfMemory shortage)) t) →
      (∃ n s' t, a.regroup split x.session = .ok n s' ∧
        Session.regroupQuery (a.rule split) x.session = .ok n t ∧
        t.grouping.toList = s'.grouping.toList) ∨
      ((∃ s', a.regroup split x.session = .error .broken s') ∧
        (∃ t, Session.regroupQuery (a.rule split) x.session = .error .broken t) ∧
        ∃ d, x.session.grouping.get? d = some split.target ∧
          maxId ≤ if a.Holds shard d then split.positive else split.negative)) := by
  have hterms := h.splits_regroup hb a split
  have hquery := h.splits_regroupQuery hb (a.rule split)
  refine ⟨fun n s' hr d hd => ?_, fun hmemory hmemory' => ?_⟩
  · obtain ⟨group, hgroup⟩ := Grouping.get?_of_lt_len (h.sound.wellFormed.len_eq.symm ▸ hd)
    refine ⟨group, hgroup, (hterms.get?_of_ok hr hgroup).trans (congrArg some ?_)⟩
    rw [AnyOf.destination_satisfies]
    by_cases hn : 1 < x.session.numGroups
    · simp [hn]
    · simp [hn]
  · refine (hterms.interchange hquery hmax hmemory hmemory').imp id ?_
    rintro ⟨hbroken, hbroken', d, group, hgroup, hle⟩
    refine ⟨hbroken, hbroken', ?_⟩
    rw [AnyOf.destination_satisfies] at hle
    by_cases htarget : group = split.target
    · rw [if_pos htarget] at hle
      exact ⟨d, htarget ▸ hgroup, hle⟩
    · -- the groups of a session can be counted, so none of them is the largest id
      rw [if_neg htarget] at hle
      have hlt := h.sound.wellFormed.lt_numGroups d group hgroup
      have hcount : x.session.grouping.numGroups ≤ maxId := h.numGroups_le hb
      omega

/-- What passes goes back to the target. Nobody is of age 99, and age 20 is asked for twice. -/
theorem Reachable.split_meaning_opened : ∃ n s' t,
    Session.intOr "age" [20, 99, 20] ⟨1, 2, 1⟩ (opened 1000) = .ok n s' ∧
    Session.regroupQuery ((AnyOf.ints "age" [20, 99, 20]).rule ⟨1, 2, 1⟩) (opened 1000) =
      .ok n t ∧
    s'.grouping.get? 0 = some 2 ∧ s'.grouping.get? 1 = some 1 ∧
    t.grouping.toList = s'.grouping.toList := by
  obtain ⟨n, s', hr⟩ : ∃ n s',
      Session.intOr "age" [20, 99, 20] ⟨1, 2, 1⟩ (opened 1000) = .ok n s' := ⟨_, _, by cbv⟩
  obtain ⟨m, t, hr'⟩ : ∃ m t, Session.regroupQuery
      ((AnyOf.ints "age" [20, 99, 20]).rule ⟨1, 2, 1⟩) (opened 1000) = .ok m t := ⟨_, _, by cbv⟩
  obtain ⟨hgroups, hsame⟩ := Reachable.split_meaning reachable_opened built_ages
    (.ints "age" [20, 99, 20]) (show (⟨1, 2, 1⟩ : Split).maxGroup ≤ maxId by decide)
  obtain ⟨_, hgroup, hfirst⟩ := hgroups n s' hr 0 (by decide)
  cases hgroup
  obtain ⟨_, hgroup, hsecond⟩ := hgroups n s' hr 1 (by decide)
  cases hgroup
  rcases hsame (fun _ _ hshort => by cases hr.symm.trans hshort)
    (fun _ _ hshort => by cases hr'.symm.trans hshort) with
    ⟨_, _, _, hterms, hquery, hlist⟩ | ⟨⟨_, hbroken⟩, -⟩
  · cases hr.symm.trans hterms
    exact ⟨_, _, _, hr, hquery, hfirst.trans (by decide), hsecond.trans (by decide), hlist⟩
  · cases hr.symm.trans hbroken

/-- With all documents in group 0 nothing is split, though the second document is in the target and
is of age 20. -/
theorem filtered_out_unsplit : ages.Built ∧ Reachable ages narrow ⟨emptied, 0⟩ ∧
    ∃ n s', Session.intOr "age" [20] ⟨0, 0, 1⟩ emptied = .ok n s' ∧
      emptied.grouping.get? 1 = some 0 ∧ 20 ∈ ages.intValues "age" 1 ∧
      s'.grouping.get? 1 ≠ some 1 :=
  ⟨built_ages, reachable_emptied, 1, emptied, by cbv, by decide, by decide, by decide⟩

end Live

end Cohort
