import Cohort.Proofs.Regroup.Rearrange
import Cohort.Proofs.Session.Conclusions

/-!
# Rearrangements of a session — calls that come to the same

Two calls that send every document to the same group need not need the same memory, or read the same
things. But neither breaks where the other goes through, and where both go through there is one
outcome.
-/

namespace Cohort.Call

open Regroup (Rearranged Overruns)

variable {refused refused' : Error → Prop} {excuse excuse' : Prop} {f f' : Nat → Nat → Nat}
  {x y : Call Nat} {s s' : Session} {n : Nat}

/-- The call ends as a regroup does that is told by where it sends every document,
`Regroup.Rearranges`. -/
def Rearranges (refused : Error → Prop) (excuse : Prop) (f : Nat → Nat → Nat) (x : Call Nat)
    (s : Session) : Prop :=
  Ends x s
    (fun n s' => if 1 < s.numGroups then Rearranged f s.grouping n s'.grouping
      else n = s.numGroups ∧ s'.grouping = s.grouping)
    (OnFailure (fun e _ => refused e) (1 < s.numGroups ∧ Overruns excuse f s.grouping))

theorem rearranges_regroup {shard : Shard} {config : Config} {hand : Nat}
    {body : Session → Feed → Pass Nat} (hs : s.Sound shard config 1 hand)
    (h : ∀ t : Session, t.stats = s.stats →
      Regroup.Rearranges refused excuse f (body t ⟨shard, config.bufferSize⟩) s.grouping) :
    Rearranges refused excuse f (Session.regroup body) s :=
  (ends_regroup_of_completes hs h).mono (fun _ _ hok => hok.1) fun _ _ he => he

/-- Only the documents that there are matter. -/
theorem Rearranges.congr (h : Rearranges refused excuse f x s)
    (hf : ∀ d group, s.grouping.get? d = some group → f d group = f' d group) :
    Rearranges refused excuse f' x s := by
  refine h.mono (fun n s' hok => ?_) ?_
  · split_ifs at hok ⊢
    · exact ⟨hok.numGroups_eq, hok.numGroups_le, hok.len_eq,
        fun d group hgroup => hf d group hgroup ▸ hok.get?_eq d group hgroup⟩
    · exact hok
  · rintro (e | _) t he
    · exact he
    · refine ⟨he.1, he.2.imp id ?_⟩
      rintro ⟨d, group, hgroup, hle⟩
      exact ⟨d, group, hgroup, hf d group hgroup ▸ hle⟩

/-- Every document is where it is sent, unless there was nothing left to move. -/
theorem Rearranges.get?_of_ok (h : Rearranges refused excuse f x s) (hr : x s = .ok n s')
    {d group : Nat} (hgroup : s.grouping.get? d = some group) :
    s'.grouping.get? d = some (if 1 < s.numGroups then f d group else group) := by
  have hok := h.ok_of hr
  by_cases hn : 1 < s.numGroups
  · rw [if_pos hn] at hok ⊢
    exact hok.get?_eq d group hgroup
  · rw [if_neg hn] at hok ⊢
    rw [hok.2, hgroup]

/-- Where both calls go through, they come to the same. -/
theorem Rearranges.same (hx : Rearranges refused excuse f x s)
    (hy : Rearranges refused' excuse' f y s) {m : Nat} {t : Session} (hrx : x s = .ok n s')
    (hry : y s = .ok m t) :
    t.grouping.toList = s'.grouping.toList ∧ m = n := by
  have hokx := hx.ok_of hrx
  have hoky := hy.ok_of hry
  by_cases hn : 1 < s.numGroups
  · rw [if_pos hn] at hokx hoky
    exact hokx.unique hoky
  · rw [if_neg hn] at hokx hoky
    exact ⟨by rw [hokx.2, hoky.2], by rw [hokx.1, hoky.1]⟩

/-- A check only breaks where some document would be sent to the largest id, so it does not break
where another call of the same kind goes through. -/
theorem Rearranges.ne_broken (hx : Rearranges refused excuse f x s)
    (hy : Rearranges refused' excuse' f y s) (hexcuse : ¬ excuse') {t : Session}
    (hrx : x s = .ok n s') : y s ≠ .error .broken t := by
  intro hry
  obtain ⟨hn, hex | ⟨d, group, hgroup, hle⟩⟩ := hy.err_of hry
  · exact hexcuse hex
  · have hok := hx.ok_of hrx
    rw [if_pos hn] at hok
    exact absurd (hok.lt_maxId hgroup) (Nat.not_lt_of_le hle)

/-- Unless one of them is refused, both calls go through and come to the same, or both break at a
document that would be sent to the largest id. -/
theorem Rearranges.interchange (hx : Rearranges refused excuse f x s)
    (hy : Rearranges refused' excuse' f y s) (hexcuse : ¬ excuse) (hexcuse' : ¬ excuse')
    (hrefused : ∀ e t, x s ≠ .error (.refused e) t)
    (hrefused' : ∀ e t, y s ≠ .error (.refused e) t) :
    (∃ n s' t, x s = .ok n s' ∧ y s = .ok n t ∧ t.grouping.toList = s'.grouping.toList) ∨
    ((∃ s', x s = .error .broken s') ∧ (∃ t, y s = .error .broken t) ∧
      ∃ d group, s.grouping.get? d = some group ∧ maxId ≤ f d group) := by
  cases hrx : x s with
  | ok n s' =>
    cases hry : y s with
    | ok m t =>
      obtain ⟨hsame, rfl⟩ := hx.same hy hrx hry
      exact .inl ⟨m, s', t, rfl, rfl, hsame⟩
    | error e t =>
      cases e with
      | broken => exact absurd hry (hx.ne_broken hy hexcuse' hrx)
      | refused e => exact absurd hry (hrefused' e t)
  | error e s' =>
    cases e with
    | refused e => exact absurd hrx (hrefused e s')
    | broken =>
      cases hry : y s with
      | ok m t => exact absurd hrx (hy.ne_broken hx hexcuse hry)
      | error e t =>
        cases e with
        | refused e => exact absurd hry (hrefused' e t)
        | broken =>
          obtain ⟨-, hex | hlargest⟩ := hx.err_of hrx
          · exact absurd hex hexcuse
          · exact .inr ⟨⟨s', rfl⟩, ⟨t, rfl⟩, hlargest⟩

end Cohort.Call
