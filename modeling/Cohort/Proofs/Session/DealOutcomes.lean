import Cohort.Proofs.Regroup.DealMeaning
import Cohort.Proofs.Session.GroupZero
import Cohort.Proofs.Session.Rearrange
import Cohort.Proofs.Shard.Columns

/-!
# Outcomes of random splits — by terms and by values alike

Nothing here depends on the hash: a call of a session uses the one of its salt. As long as not all
documents are filtered out, a document of the target goes where the hash of its smallest value or of
its value in a stat belongs, and for a field with one value per document it makes no difference
which of the two is asked.
-/

namespace Cohort

open Regroup (Deal)

namespace Call

variable {shard : Shard} {config : Config} {hand : Nat} {s : Session}

theorem rearranges_dealByTerms (hs : s.Sound shard config 1 hand)
    (hg : s.grouping.Counted shard.numDocs) (hshard : shard.Ascending)
    (hbuffer : 0 < config.bufferSize) (hash : SaltedHash) (field : String) (isInt : Bool)
    {deal : Deal} {unmatched : Option Nat} (hu : ∀ r ∈ unmatched, r ∈ deal.results) :
    Rearranges deal.Refused (maxId < deal.results.foldl max 0)
      (deal.destination unmatched (hash.ofLeast? shard field isInt))
      (Session.dealByTerms hash field isInt deal unmatched) s := by
  refine rearranges_regroup hs fun _ _ => ?_
  exact Regroup.rearranges_dealByField hg hshard hbuffer field isInt hu

theorem rearranges_dealByStat (hs : s.Sound shard config 1 hand)
    (hg : s.grouping.Counted shard.numDocs) (hash : SaltedHash) {stat : Nat} {values : ValueTable}
    (hstat : s.stats.get stat = .ok values) (deal : Deal) (fallback : Option Nat) :
    Rearranges deal.Refused (maxId < deal.results.foldl max 0 ∨ ¬ values.Covers shard.numDocs)
      (deal.destination fallback fun doc => (values.value? doc).map hash.ofInt)
      (Session.dealByStat hash stat deal) s := by
  refine rearranges_regroup hs fun t ht => ?_
  rw [ht, hstat]
  exact Regroup.rearranges_dealByValues hg values fallback

end Call

/-- A document with one value in a field has the same hash in the field and in its numeric view. -/
theorem SaltedHash.ofLeast?_eq (hash : SaltedHash) {shard : Shard} (hshard : shard.Ascending)
    {field : String} {values : ValueTable} (hvalues : shard.valueTable? field = some values)
    {d : Nat} (hd : d < shard.numDocs) {v : Int} (hone : shard.intValues field d = [v]) :
    hash.ofLeast? shard field true d = some (hash.ofInt v) ∧ values.value? d = some v := by
  have hreads : values.Reads shard.numDocs (shard.intValues field) :=
    hshard.reads hvalues fun _ _ => Iff.rfl
  refine ⟨?_, ?_⟩
  · show (shard.intValues field d).min?.map hash.ofInt = _
    rw [hone]
    rfl
  · rw [hreads.value?_eq d hd, hone]
    rfl

namespace Live

variable {shard : Shard} {config : Config} {x : Live} {deal : Deal}

theorem Reachable.rearranges_dealByTerms (h : Reachable shard config x) (hb : shard.Built)
    (hash : SaltedHash) (field : String) (isInt : Bool) {unmatched : Option Nat}
    (hu : ∀ r ∈ unmatched, r ∈ deal.results) :
    Call.Rearranges deal.Refused (maxId < deal.results.foldl max 0)
      (deal.destination unmatched (hash.ofLeast? shard field isInt))
      (Session.dealByTerms hash field isInt deal unmatched) x.session :=
  Call.rearranges_dealByTerms h.sound (h.counted hb) hb.ascending h.bufferSize_pos hash field isInt
    hu

/-- By terms, a document of the target goes by its smallest value. -/
theorem Reachable.dealByTerms_ok (h : Reachable shard config x) (hb : shard.Built)
    (hd : checkFractions deal.fractions deal.results = .ok ()) {hash : SaltedHash} {field : String}
    {isInt : Bool} {unmatched : Option Nat} (hu : ∀ r ∈ unmatched, r ∈ deal.results) {n : Nat}
    {s' : Session}
    (hr : Session.dealByTerms hash field isInt deal unmatched x.session = .ok n s') {d : Nat}
    (hdoc : d < shard.numDocs) :
    ∃ group, x.session.grouping.get? d = some group ∧
      s'.grouping.get? d =
        if group = deal.target ∧ 1 < x.session.numGroups then
          match hash.ofLeast? shard field isInt d with
          | some least => deal.groupOf? least
          | none => some (unmatched.getD group)
        else some group := by
  obtain ⟨group, hgroup⟩ := Grouping.get?_of_lt_len (h.sound.wellFormed.len_eq.symm ▸ hdoc)
  refine ⟨group, hgroup, ?_⟩
  rw [(h.rearranges_dealByTerms hb hash field isInt hu).get?_of_ok hr hgroup]
  by_cases hn : 1 < x.session.numGroups
  · by_cases htarget : group = deal.target
    · subst htarget
      rw [if_pos hn, if_pos ⟨rfl, hn⟩]
      cases hleast : hash.ofLeast? shard field isInt d with
      | none => rw [Deal.destination_of_none hleast]
      | some least =>
        obtain ⟨r, -, hr⟩ := Deal.exists_groupOf? hd least
        rw [Deal.destination_of_some hleast]
        show some ((deal.groupOf? least).getD deal.target) = deal.groupOf? least
        rw [hr, Option.getD_some]
    · rw [if_pos hn, if_neg fun ht => htarget ht.1, Deal.destination_other htarget]
  · rw [if_neg hn, if_neg fun ht => hn ht.2]

/-- By a stat, a document of the target goes by its value. -/
theorem Reachable.dealByStat_ok (h : Reachable shard config x) (hb : shard.Built)
    (hd : checkFractions deal.fractions deal.results = .ok ()) {hash : SaltedHash} {stat : Nat}
    {values : ValueTable} (hstat : x.session.stats.get stat = .ok values) {n : Nat} {s' : Session}
    (hr : Session.dealByStat hash stat deal x.session = .ok n s') {d : Nat}
    (hdoc : d < shard.numDocs) :
    ∃ group, x.session.grouping.get? d = some group ∧
      if group = deal.target ∧ 1 < x.session.numGroups then
        ∃ v, values.value? d = some v ∧ s'.grouping.get? d = deal.groupOf? (hash.ofInt v)
      else s'.grouping.get? d = some group := by
  obtain ⟨group, hgroup⟩ := Grouping.get?_of_lt_len (h.sound.wellFormed.len_eq.symm ▸ hdoc)
  refine ⟨group, hgroup, ?_⟩
  -- without a value the document would be in the largest group, which cannot be counted
  have hdealt := Call.rearranges_dealByStat h.sound (h.counted hb) hash hstat deal (some maxId)
  have hget := hdealt.get?_of_ok hr hgroup
  have hok := hdealt.ok_of hr
  by_cases hn : 1 < x.session.numGroups
  · by_cases htarget : group = deal.target
    · subst htarget
      rw [if_pos hn] at hget hok
      rw [if_pos ⟨rfl, hn⟩]
      cases hv : values.value? d with
      | none =>
        have hlt := hok.lt_maxId hgroup
        rw [Deal.destination_of_none (congrArg (Option.map hash.ofInt) hv)] at hlt
        exact absurd hlt (Nat.lt_irrefl _)
      | some v =>
        obtain ⟨r, -, hr⟩ := Deal.exists_groupOf? hd (hash.ofInt v)
        rw [Deal.destination_of_some (congrArg (Option.map hash.ofInt) hv), hr] at hget
        exact ⟨v, rfl, hget.trans hr.symm⟩
    · rw [if_neg fun ht => htarget ht.1, hget, if_pos hn, Deal.destination_other htarget]
  · rw [if_neg fun ht => hn ht.2, hget, if_neg hn]

/-- A document of the target with one value has the same hash in the field and in its numeric
view. -/
theorem Reachable.hashes_alike (h : Reachable shard config x) (hb : shard.Built)
    {field : String} {values : ValueTable} (hvalues : shard.valueTable? field = some values)
    (hone : ∀ d, x.session.grouping.get? d = some deal.target →
      (shard.intValues field d).length = 1) (hash : SaltedHash) {d : Nat}
    (hgroup : x.session.grouping.get? d = some deal.target) :
    ∃ v, shard.intValues field d = [v] ∧
      hash.ofLeast? shard field true d = some (hash.ofInt v) ∧ values.value? d = some v := by
  obtain ⟨v, hv⟩ := List.length_eq_one_iff.mp (hone d hgroup)
  have hdoc : d < shard.numDocs := h.sound.wellFormed.len_eq ▸ Grouping.lt_len_of_get? hgroup
  exact ⟨v, hv, hash.ofLeast?_eq hb.ascending hvalues hdoc hv⟩

/-- Where every document of the target has one value, the field and its numeric view are dealt out
alike. -/
theorem Reachable.deals_alike (h : Reachable shard config x) (hb : shard.Built)
    (hd : checkFractions deal.fractions deal.results = .ok ())
    (hmax : ∀ r ∈ deal.results, r ≤ maxId) {hash : SaltedHash} {field : String} {stat : Nat}
    {values : ValueTable} (hvalues : shard.valueTable? field = some values)
    (hstat : x.session.stats.get stat = .ok values)
    (hone : ∀ d, x.session.grouping.get? d = some deal.target →
      (shard.intValues field d).length = 1)
    (hmemory : ∀ shortage t, Session.dealByTerms hash field true deal none x.session ≠
      .error (.refused (.outOfMemory shortage)) t)
    (hmemory' : ∀ shortage t, Session.dealByStat hash stat deal x.session ≠
      .error (.refused (.outOfMemory shortage)) t) :
    (∃ n s' t, Session.dealByTerms hash field true deal none x.session = .ok n s' ∧
      Session.dealByStat hash stat deal x.session = .ok n t ∧
      t.grouping.toList = s'.grouping.toList) ∨
    ((∃ s', Session.dealByTerms hash field true deal none x.session = .error .broken s') ∧
      (∃ t, Session.dealByStat hash stat deal x.session = .error .broken t) ∧
      ∃ d v, x.session.grouping.get? d = some deal.target ∧ shard.intValues field d = [v] ∧
        deal.groupOf? (hash.ofInt v) = some maxId) := by
  have hnone : ∀ r ∈ (none : Option Nat), r ∈ deal.results := fun _ hr => by cases hr
  have hterms := h.rearranges_dealByTerms hb hash field true hnone
  -- with one value in each document of the target, its smallest one is the one of the stat
  have hsame : Call.Rearranges deal.Refused
      (maxId < deal.results.foldl max 0 ∨ ¬ values.Covers shard.numDocs)
      (deal.destination none (hash.ofLeast? shard field true))
      (Session.dealByStat hash stat deal) x.session := by
    refine (Call.rearranges_dealByStat h.sound (h.counted hb) hash hstat deal none).congr ?_
    intro d group hgroup
    refine Deal.destination_congr none fun htarget => ?_
    subst htarget
    obtain ⟨v, -, hleast, hv⟩ := h.hashes_alike hb hvalues hone hash hgroup
    rw [hleast, hv]
    rfl
  have htop : ¬ maxId < deal.results.foldl max 0 :=
    Nat.not_lt_of_le (foldl_max_le_iff.mpr ⟨Nat.zero_le _, hmax⟩)
  have hcovers := Shard.covers_valueTable? hvalues
  refine (hterms.interchange hsame htop (by simp [htop, hcovers]) (fun e t hr => ?_)
    fun e t hr => ?_).imp id ?_
  · obtain ⟨shortage, rfl⟩ := Deal.Refused.memory (hterms.err_of hr) hd
    exact hmemory shortage t hr
  · obtain ⟨shortage, rfl⟩ := Deal.Refused.memory (hsame.err_of hr) hd
    exact hmemory' shortage t hr
  · rintro ⟨hbroken, hbroken', d, group, hgroup, hle⟩
    refine ⟨hbroken, hbroken', ?_⟩
    by_cases htarget : group = deal.target
    · subst htarget
      obtain ⟨v, hv, hleast, -⟩ := h.hashes_alike hb hvalues hone hash hgroup
      obtain ⟨r, hmem, hr⟩ := Deal.exists_groupOf? hd (hash.ofInt v)
      rw [Deal.destination_of_some hleast, hr, Option.getD_some] at hle
      exact ⟨d, v, hgroup, hv, hr.trans (congrArg some (Nat.le_antisymm (hmax r hmem) hle))⟩
    · -- the groups of a session can be counted, so none of them is the largest id
      rw [Deal.destination_other htarget] at hle
      have hlt := h.sound.wellFormed.lt_numGroups d group hgroup
      have hcount : x.session.grouping.numGroups ≤ maxId := h.numGroups_le hb
      omega

/-- Whatever the hash is and with fractions that pass their check, a random split that goes through
sends every document of the target to the result numbered by how many cuts are at or below the hash
of its smallest value, or of its value in the stat, even if that is the target again; it stays, or
goes to the fallback, if it holds no value. All others stay, and so do all if they are filtered out
already. A field that has one value for every document of the target and its numeric view are dealt
out alike as long as there is memory for both: they lead to the same groups and to the same number,
or both break at a document that would be sent to the largest id. -/
theorem Reachable.deal_meaning (h : Reachable shard config x) (hb : shard.Built)
    (hash : SaltedHash) {deal : Deal} (hd : checkFractions deal.fractions deal.results = .ok ()) :
    (∀ (field : String) (isInt : Bool) (unmatched : Option Nat) (n : Nat) (s' : Session),
      (∀ r ∈ unmatched, r ∈ deal.results) →
      Session.dealByTerms hash field isInt deal unmatched x.session = .ok n s' →
      ∀ d < shard.numDocs, ∃ group, x.session.grouping.get? d = some group ∧
        s'.grouping.get? d =
          if group = deal.target ∧ 1 < x.session.numGroups then
            match hash.ofLeast? shard field isInt d with
            | some least => deal.groupOf? least
            | none => some (unmatched.getD group)
          else some group) ∧
    (∀ (stat : Nat) (values : ValueTable) (n : Nat) (s' : Session),
      x.session.stats.get stat = .ok values →
      Session.dealByStat hash stat deal x.session = .ok n s' →
      ∀ d < shard.numDocs, ∃ group, x.session.grouping.get? d = some group ∧
        if group = deal.target ∧ 1 < x.session.numGroups then
          ∃ v, values.value? d = some v ∧ s'.grouping.get? d = deal.groupOf? (hash.ofInt v)
        else s'.grouping.get? d = some group) ∧
    (∀ (field : String) (stat : Nat) (values : ValueTable),
      shard.valueTable? field = some values → x.session.stats.get stat = .ok values →
      (∀ d, x.session.grouping.get? d = some deal.target →
        (shard.intValues field d).length = 1) →
      (∀ r ∈ deal.results, r ≤ maxId) →
      (∀ shortage t, Session.dealByTerms hash field true deal none x.session ≠
        .error (.refused (.outOfMemory shortage)) t) →
      (∀ shortage t, Session.dealByStat hash stat deal x.session ≠
        .error (.refused (.outOfMemory shortage)) t) →
      (∃ n s' t, Session.dealByTerms hash field true deal none x.session = .ok n s' ∧
        Session.dealByStat hash stat deal x.session = .ok n t ∧
        t.grouping.toList = s'.grouping.toList) ∨
      ((∃ s', Session.dealByTerms hash field true deal none x.session = .error .broken s') ∧
        (∃ t, Session.dealByStat hash stat deal x.session = .error .broken t) ∧
        ∃ d v, x.session.grouping.get? d = some deal.target ∧ shard.intValues field d = [v] ∧
          deal.groupOf? (hash.ofInt v) = some maxId)) :=
  ⟨fun _ _ _ _ _ hu hr _ hdoc => h.dealByTerms_ok hb hd hu hr hdoc,
    fun _ _ _ _ hstat hr _ hdoc => h.dealByStat_ok hb hd hstat hr hdoc,
    fun _ _ _ hvalues hstat hone hmax hmemory hmemory' =>
      h.deals_alike hb hd hmax hvalues hstat hone hmemory hmemory'⟩

/-- A session over `ages` with the ages as a stat. -/
def aged : Session :=
  { opened 1000 with
    ledger := ⟨⟨1000, 56, 56⟩, none⟩
    stats := ⟨#[⟨"age", .dense #[10, 20, 20]⟩], 64⟩ }

theorem reachable_aged : Reachable ages narrow ⟨aged, 0⟩ :=
  .step reachable_opened (.answered (r := .pushValues "age" (.dense #[10, 20, 20])) rfl)

/-- A hash that ascends with the number. -/
def ascendingHash : SaltedHash := ⟨fun v => v.toNat * 2 ^ 59, fun _ => 0⟩

/-- The lower half of the hashes stays in the target. -/
def halved : Deal := ⟨1, [⟨0x3fe0000000000000⟩], [1, 2]⟩

/-- The first document is dealt to the target and stays there, though later terms still come by. -/
theorem Reachable.deal_meaning_aged : ∃ n s' t,
    Session.dealByTerms ascendingHash "age" true halved none aged = .ok n s' ∧
    Session.dealByStat ascendingHash 0 halved aged = .ok n t ∧
    s'.grouping.get? 0 = some 1 ∧ s'.grouping.get? 1 = some 2 ∧
    t.grouping.toList = s'.grouping.toList := by
  obtain ⟨n, s', hr⟩ : ∃ n s', Session.dealByTerms ascendingHash "age" true halved none aged =
    .ok n s' := exists_of_answers (by decide +kernel)
  obtain ⟨m, t, hr'⟩ : ∃ m t, Session.dealByStat ascendingHash 0 halved aged = .ok m t :=
    exists_of_answers (by decide +kernel)
  have hfractions : checkFractions halved.fractions halved.results = .ok () := by decide +kernel
  obtain ⟨hterms, -, halike⟩ :=
    Reachable.deal_meaning reachable_aged built_ages ascendingHash hfractions
  have hone : ∀ d, aged.grouping.get? d = some halved.target →
      (ages.intValues "age" d).length = 1 := by
    intro d hd
    have hlt : d < 3 := Grouping.lt_len_of_get? hd
    interval_cases d <;> decide
  obtain ⟨_, hgroup, hfirst⟩ := hterms "age" true none n s' (by simp) hr 0 (by decide)
  cases hgroup
  obtain ⟨_, hgroup, hsecond⟩ := hterms "age" true none n s' (by simp) hr 1 (by decide)
  cases hgroup
  rcases halike "age" 0 (.dense #[10, 20, 20]) rfl rfl hone (by decide)
    (fun _ _ hshort => by cases hr.symm.trans hshort)
    (fun _ _ hshort => by cases hr'.symm.trans hshort) with
    ⟨_, _, _, hterms, hstat, hlist⟩ | ⟨⟨_, hbroken⟩, -⟩
  · cases hr.symm.trans hterms
    exact ⟨_, _, _, hr, hstat, hfirst.trans (by decide +kernel),
      hsecond.trans (by decide +kernel), hlist⟩
  · cases hr.symm.trans hbroken

/-- With all documents in group 0 nothing is dealt out, though the second document is in the target,
holds a value, and there is only one result. -/
theorem filtered_out_undealt : ages.Built ∧ Reachable ages narrow ⟨emptied, 0⟩ ∧
    checkFractions [] [1] = .ok () ∧ ∃ n s',
      Session.randomMulti "age" true "" ⟨0, [], [1]⟩ emptied = .ok n s' ∧
      emptied.grouping.get? 1 = some 0 ∧ 20 ∈ ages.intValues "age" 1 ∧
      (∀ h, (⟨0, [], [1]⟩ : Deal).groupOf? h = some 1) ∧ s'.grouping.get? 1 ≠ some 1 :=
  ⟨built_ages, reachable_emptied, rfl, 1, emptied, by cbv, by decide, by decide, fun _ => rfl,
    by decide⟩

end Live

end Cohort
