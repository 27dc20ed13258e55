import Cohort.Proofs.Regroup.ValueMeaning
import Cohort.Proofs.Session.Conclusions
import Cohort.Proofs.Session.Guarantees

/-!
# Outcomes of remaps — all groups move at once

A remap is refused for its lists alone, even where there is nothing to move. If it goes through,
every document is in the group that its old one was remapped to, whichever shortcut was taken.
-/

namespace Cohort

open Regroup (remapped)

namespace Call

variable {shard : Shard} {config : Config} {hand : Nat} {s : Session}

/-- The documents are where they are sent, and a refusal tells of the lists or of the memory. -/
theorem ends_remap (hs : s.Sound shard config 1 hand) (sources destinations : List Nat)
    (onlyRemapped : Bool) :
    Ends (Session.remap sources destinations onlyRemapped) s
      (fun n s' => (sources.length = destinations.length ∧ 0 ∉ sources) ∧
        Pass.Sent shard.numDocs
          (fun _ x => (Regroup.remapTable sources destinations onlyRemapped s.numGroups)[x]?)
          s.grouping n s'.grouping)
      (OnFailure
        (fun e _ => (∃ cause, e = .invalidArgument cause) ∧
            (sources.length ≠ destinations.length ∨ 0 ∈ sources) ∨
          (∃ shortage, e = .outOfMemory shortage) ∧
            sources.length = destinations.length ∧ 0 ∉ sources)
        (sources.length = destinations.length ∧ 0 ∉ sources)) := by
  have hg := hs.wellFormed
  refine (ends_regroup_of_completes hs fun _ _ =>
    (Regroup.completes_byRemap hg.len_le sources destinations onlyRemapped).and
      (Pass.ensures_iff.mp (Regroup.sends_byRemap hg sources destinations onlyRemapped))).mono
    (fun _ _ hok => hok.1) ?_
  rintro (e | _) s' he
  · exact he.1
  · exact he.1

end Call

namespace Live

variable {shard : Shard} {config : Config} {x : Live} {s' : Session} {n : Nat}

theorem Reachable.remap_ok (h : Reachable shard config x) {sources destinations : List Nat}
    {onlyRemapped : Bool}
    (hr : Session.remap sources destinations onlyRemapped x.session = .ok n s') :
    s'.grouping.len = shard.numDocs ∧
    (∀ d group, x.session.grouping.get? d = some group →
      s'.grouping.get? d =
        some (remapped (sources.zip destinations) onlyRemapped group)) ∧
    (0 < shard.numDocs → n = Meaning.numGroups s'.grouping.toList) := by
  obtain ⟨-, hsent⟩ := (Call.ends_remap h.sound sources destinations onlyRemapped).ok_of hr
  exact ⟨hsent.wellFormed.len_eq,
    fun d group hgroup => Regroup.get?_of_remapped h.sound.wellFormed hsent hgroup,
    Meaning.numGroups_of_sent hsent⟩

/-- Pairs of groups without documents make no difference. -/
theorem Reachable.remap_same (h : Reachable shard config x)
    {sources destinations sources' destinations' : List Nat} {onlyRemapped : Bool}
    (hpairs : (sources'.zip destinations').filter (x.session.grouping.toList.contains ·.1) =
      (sources.zip destinations).filter (x.session.grouping.toList.contains ·.1))
    (hr : Session.remap sources destinations onlyRemapped x.session = .ok n s') {m : Nat}
    {t : Session} (hr' : Session.remap sources' destinations' onlyRemapped x.session = .ok m t) :
    t.grouping.toList = s'.grouping.toList ∧ (0 < shard.numDocs → m = n) := by
  obtain ⟨hlen, hget, hcount⟩ := h.remap_ok hr
  obtain ⟨hlen', hget', hcount'⟩ := h.remap_ok hr'
  have hsame : t.grouping.toList = s'.grouping.toList := by
    refine Grouping.toList_ext (hlen'.trans hlen.symm) fun d hd => ?_
    obtain ⟨group, hgroup⟩ :=
      Grouping.get?_of_lt_len (h.sound.wellFormed.len_eq.trans hlen.symm ▸ hd)
    have hmem : x.session.grouping.toList.contains group = true :=
      List.contains_iff_mem.mpr (Grouping.mem_toList.mpr ⟨d, hgroup⟩)
    rw [hget d group hgroup, hget' d group hgroup, ← Regroup.remapped_filter hmem, hpairs,
      Regroup.remapped_filter hmem]
  refine ⟨hsame, fun hpos => ?_⟩
  rw [hcount hpos, hcount' hpos, hsame]

/-- A remap is refused for its lists just when these differ in length or name group 0 as a source,
even where all documents are filtered out. If it goes through, every document is where the last pair
of its old group sends it; groups without a pair stay, or go to group 0 if only remapped ones are to
be kept. So groups that are swapped or go round in a cycle stay apart, pairs of groups without
documents make no difference, and the number of groups that is reported is one more than the
largest. -/
theorem Reachable.remap_meaning (h : Reachable shard config x) (sources destinations : List Nat)
    (onlyRemapped : Bool) :
    ((∃ cause t, Session.remap sources destinations onlyRemapped x.session =
        .error (.refused (.invalidArgument cause)) t) ↔
      sources.length ≠ destinations.length ∨ 0 ∈ sources) ∧
    ∀ n s', Session.remap sources destinations onlyRemapped x.session = .ok n s' →
      (∀ d < shard.numDocs, ∃ group, x.session.grouping.get? d = some group ∧
        s'.grouping.get? d =
          some (remapped (sources.zip destinations) onlyRemapped group)) ∧
      (sources.Nodup → destinations.Perm sources → ∀ d e group group',
        x.session.grouping.get? d = some group → x.session.grouping.get? e = some group' →
        (onlyRemapped = true → group ∈ sources ∧ group' ∈ sources) →
        s'.grouping.get? d = s'.grouping.get? e → group = group') ∧
      (∀ sources' destinations' m t,
        (sources'.zip destinations').filter (x.session.grouping.toList.contains ·.1) =
          (sources.zip destinations).filter (x.session.grouping.toList.contains ·.1) →
        Session.remap sources' destinations' onlyRemapped x.session = .ok m t →
        t.grouping.toList = s'.grouping.toList ∧ (0 < shard.numDocs → m = n)) ∧
      (0 < shard.numDocs → n = Meaning.numGroups s'.grouping.toList) := by
  have hends := Call.ends_remap h.sound sources destinations onlyRemapped
  refine ⟨⟨?_, fun hbad => ?_⟩, fun n s' hr => ?_⟩
  · rintro ⟨cause, t, hr⟩
    rcases hends.err_of hr with ⟨-, hbad⟩ | ⟨⟨_, he⟩, -⟩
    · exact hbad
    · cases he
  · have hgood : ¬ (sources.length = destinations.length ∧ 0 ∉ sources) := by
      rw [not_and_or, not_not]
      exact hbad
    cases hr : Session.remap sources destinations onlyRemapped x.session with
    | ok n s' => exact absurd (hends.ok_of hr).1 hgood
    | error e t =>
      cases e with
      | broken => exact absurd (hends.err_of hr) hgood
      | refused e =>
        rcases hends.err_of hr with ⟨⟨cause, rfl⟩, -⟩ | ⟨-, hok⟩
        · exact ⟨cause, t, rfl⟩
        · exact absurd hok hgood
  · obtain ⟨-, hget, hcount⟩ := h.remap_ok hr
    obtain ⟨⟨hlen, -⟩, -⟩ := hends.ok_of hr
    refine ⟨fun d hd => ?_, ?_, fun _ _ _ _ hpairs hr' => h.remap_same hpairs hr hr', hcount⟩
    · obtain ⟨group, hgroup⟩ := Grouping.get?_of_lt_len (h.sound.wellFormed.len_eq.symm ▸ hd)
      exact ⟨group, hgroup, hget d group hgroup⟩
    · intro hnodup hperm d e group group' hd he hflag hsame
      have hsources : (sources.zip destinations).map (·.1) = sources :=
        List.map_fst_zip (Nat.le_of_eq hlen)
      have hdestinations : (sources.zip destinations).map (·.2) = destinations :=
        List.map_snd_zip (Nat.le_of_eq hlen.symm)
      rw [hget d group hd, hget e group' he] at hsame
      refine Regroup.remapped_injective (by rwa [hsources])
        (by rwa [hsources, hdestinations]) ?_ ?_ (Option.some.inj hsame)
      · exact fun hf => hsources.symm ▸ (hflag hf).1
      · exact fun hf => hsources.symm ▸ (hflag hf).2

/-- Groups 0 and 2 have documents; of the two pairs of group 2 the second one counts. -/
theorem Reachable.remap_meaning_divided : ∃ n s',
    Session.remap [2, 1, 9, 2] [5, 4, 3, 1] false divided = .ok n s' ∧
    s'.grouping.get? 0 = some 0 ∧ s'.grouping.get? 1 = some 1 ∧
    n = Meaning.numGroups s'.grouping.toList ∧
    ∃ cause t,
      Session.remap [0] [1] false divided = .error (.refused (.invalidArgument cause)) t := by
  obtain ⟨n, s', hr⟩ : ∃ n s',
      Session.remap [2, 1, 9, 2] [5, 4, 3, 1] false divided = .ok n s' := ⟨_, _, by cbv⟩
  obtain ⟨hget, -, -, hcount⟩ :=
    (Reachable.remap_meaning reachable_divided [2, 1, 9, 2] [5, 4, 3, 1] false).2 n s' hr
  have hrefused := (Reachable.remap_meaning reachable_divided [0] [1] false).1
  obtain ⟨_, hgroup, hfirst⟩ := hget 0 (by decide)
  cases hgroup
  obtain ⟨_, hgroup, hsecond⟩ := hget 1 (by decide)
  cases hgroup
  exact ⟨n, s', hr, hfirst, hsecond, hcount (by decide), hrefused.mpr (.inr (by decide))⟩

end Live

end Cohort
