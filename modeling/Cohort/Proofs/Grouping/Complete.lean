import Cohort.Proofs.Grouping.Fitted
import Cohort.Proofs.Query.Peak
import Cohort.Regroup.MultiRules

/-!
# Completion — a program logic for computations over a grouping that is paid for

`Pass.Completes x g ok refused broken`: run on grouping `g` over any coherent ledger that holds its
bytes, `x` either succeeds with `ok` of its value and the new grouping, or is refused with `refused`
of the error and the grouping then, or breaks, but that only if `broken`. Whenever it does not
break, the ledger has changed by the bytes of the groupings alone. One rule per operation.

A refused pass leaves the grouping as it is or with more room: `Grown`.
-/

namespace Cohort

/-- The ledger holds the bytes of the grouping. -/
structure Workspace.Paid (w : Workspace) : Prop where
  coherent : w.ledger.Coherent
  bytes_le : w.grouping.bytes ≤ w.ledger.used

/-- From `w` to `w'` the ledger changed by the bytes of the groupings. -/
structure Workspace.Settled (w w' : Workspace) : Prop where
  coherent : w'.ledger.Coherent
  limit_eq : w'.ledger.own.limit = w.ledger.own.limit
  used_add : w'.ledger.used + w.grouping.bytes = w.ledger.used + w'.grouping.bytes

theorem Workspace.Settled.paid {w w' : Workspace} (h : Settled w w') (hw : w.Paid) :
    w'.Paid := by
  refine ⟨h.coherent, ?_⟩
  have h1 := hw.bytes_le
  have h2 := h.used_add
  omega

theorem Workspace.Settled.trans {w v u : Workspace} (h1 : Settled w v) (h2 : Settled v u) :
    Settled w u := by
  refine ⟨h2.coherent, h2.limit_eq.trans h1.limit_eq, ?_⟩
  have := h1.used_add
  have := h2.used_add
  omega

/-- The same grouping, perhaps with room made in it. -/
def Grouping.Grown (g g' : Grouping) : Prop := g' = g ∨ ∃ m, g' = g.roomFor m

theorem Grouping.grown_refl (g : Grouping) : g.Grown g := .inl rfl

theorem Grouping.grown_roomFor (g : Grouping) (m : Nat) : g.Grown (g.roomFor m) := .inr ⟨m, rfl⟩

namespace Pass

open Workspace (Paid Settled)

variable {α β : Type} {g : Grouping} {ok : α → Grouping → Prop}
  {refused : Error → Grouping → Prop} {broken : Prop}

/-- What `x` does to `g`, whatever coherent ledger pays for it. -/
def Completes (x : Pass α) (g : Grouping) (ok : α → Grouping → Prop)
    (refused : Error → Grouping → Prop) (broken : Prop) : Prop :=
  ∀ l : Memory.Ledger, Paid ⟨l, g⟩ →
    Ends x ⟨l, g⟩ (fun a w => Settled ⟨l, g⟩ w ∧ ok a w.grouping)
      (OnFailure (fun e w => Settled ⟨l, g⟩ w ∧ refused e w.grouping) broken)

theorem Completes.mono {x : Pass α} {ok' : α → Grouping → Prop}
    {refused' : Error → Grouping → Prop} {broken' : Prop} (h : Completes x g ok refused broken)
    (hok : ∀ a g', ok a g' → ok' a g') (herr : ∀ e g', refused e g' → refused' e g')
    (hbroken : broken → broken') : Completes x g ok' refused' broken' := by
  intro l hl
  refine (h l hl).mono ?_ ?_
  · rintro a w ⟨hset, ha⟩
    exact ⟨hset, hok a _ ha⟩
  · rintro (e | _) w he
    · exact ⟨he.1, herr e _ he.2⟩
    · exact hbroken he

/-- What is known of a pass from two sides holds at once. -/
theorem Completes.and {x : Pass α} {ok' : α → Grouping → Prop}
    {refused' : Error → Grouping → Prop} {broken' : Prop} (h : Completes x g ok refused broken)
    (h' : Completes x g ok' refused' broken') :
    Completes x g (fun a g' => ok a g' ∧ ok' a g') (fun e g' => refused e g' ∧ refused' e g')
      (broken ∧ broken') := by
  intro l hl
  refine ((h l hl).and (h' l hl)).mono ?_ ?_
  · rintro a w ⟨⟨hset, ha⟩, -, ha'⟩
    exact ⟨hset, ha, ha'⟩
  · rintro (e | _) w ⟨he, he'⟩
    · exact ⟨he.1, he.2, he'.2⟩
    · exact ⟨he, he'⟩

theorem completes_pure {a : α} (h : ok a g) : Completes (pure a) g ok refused broken := by
  intro l hl
  exact ends_pure ⟨⟨hl.coherent, rfl, rfl⟩, h⟩

theorem completes_refusal {e : Error} (h : refused e g) :
    Completes (throw (.refused e)) g ok refused broken := by
  intro l hl
  exact ends_throw ⟨⟨hl.coherent, rfl, rfl⟩, h⟩

theorem completes_bind {x : Pass β} {f : β → Pass α}
    (h : Completes x g (fun b g' => Completes (f b) g' ok refused broken) refused broken) :
    Completes (x >>= f) g ok refused broken := by
  intro l hl
  refine ends_bind ((h l hl).mono ?_ (fun _ _ he => he))
  rintro b ⟨l', g'⟩ ⟨hset, hf⟩
  refine (hf l' (hset.paid hl)).mono ?_ ?_
  · rintro a w ⟨hset', ha⟩
    exact ⟨hset.trans hset', ha⟩
  · rintro (e | _) w he
    · exact ⟨hset.trans he.1, he.2⟩
    · exact he

theorem completes_grouping {ok : Grouping → Grouping → Prop} (h : ok g g) :
    Completes grouping g ok refused broken := by
  intro l hl
  exact ends_bind (ends_get (ends_pure ⟨⟨hl.coherent, rfl, rfl⟩, h⟩))

theorem completes_orBroken {o : Option α} (hok : ∀ a, o = some a → ok a g)
    (hnone : o = none → broken) : Completes (orBroken o) g ok refused broken := by
  cases o with
  | none => exact fun _ _ => ends_throw (hnone rfl)
  | some a => exact completes_pure (hok a rfl)

theorem completes_orRefused {r : Except Error α} (hok : ∀ a, r = .ok a → ok a g)
    (herr : ∀ e, r = .error e → refused e g) : Completes (orRefused r) g ok refused broken := by
  cases r with
  | error e => exact completes_refusal (herr e rfl)
  | ok a => exact completes_pure (hok a rfl)

theorem completes_orFail {r : Except Failure α} (hok : ∀ a, r = .ok a → ok a g)
    (herr : ∀ e, r = .error (.refused e) → refused e g) (hbroken : r = .error .broken → broken) :
    Completes (Regroup.orFail r) g ok refused broken := by
  cases r with
  | ok a => exact completes_pure (hok a rfl)
  | error e =>
    cases e with
    | refused e => exact completes_refusal (herr e rfl)
    | broken => exact fun _ _ => ends_throw (hbroken rfl)

/-! ### The ledger -/

theorem ends_onLedger {x : Memory.Charge α} {w : Workspace} {ok : α → Workspace → Prop}
    {err : Failure → Workspace → Prop}
    (h : Ends x w.ledger (fun a l => ok a { w with ledger := l })
      (fun e l => err e { w with ledger := l })) :
    Ends (onLedger x) w ok err := by
  unfold Ends at h ⊢
  unfold onLedger
  split at h <;> rename_i hx <;> simp only [hx] <;> exact h

/-- Bytes claimed beforehand are given back however the body ends. -/
theorem ends_release_after {body : Pass α} {l l' : Memory.Ledger} {b : Nat} (hl : Paid ⟨l, g⟩)
    (hcoh : l'.Coherent) (hused : l'.used = l.used + b) (hlimit : l'.own.limit = l.own.limit)
    (h : Completes body g ok refused broken) :
    Ends (tryFinally body (onLedger (Memory.release b))) ⟨l', g⟩
      (fun a w => Settled ⟨l, g⟩ w ∧ ok a w.grouping)
      (OnFailure (fun e w => Settled ⟨l, g⟩ w ∧ refused e w.grouping) broken) := by
  have hg := hl.bytes_le
  have hpaid : Paid ⟨l', g⟩ := ⟨hcoh, by simp only at hg ⊢; omega⟩
  refine ends_finally ((h l' hpaid).mono ?_ ?_)
  · rintro a w ⟨⟨hcoh', hlimit', hused'⟩, ha⟩
    simp only at hg hused'
    refine ends_onLedger (Memory.ends_release hcoh' (by omega) fun l'' h1 h2 h3 => ?_)
    exact ⟨⟨h1, (h3.trans hlimit').trans hlimit, by simp only; omega⟩, ha⟩
  · rintro (e | _) w he
    · obtain ⟨⟨hcoh', hlimit', hused'⟩, he⟩ := he
      simp only at hg hused'
      refine ends_onLedger (Memory.ends_release hcoh' (by omega) fun l'' h1 h2 h3 => ?_)
      exact ⟨⟨h1, (h3.trans hlimit').trans hlimit, by simp only; omega⟩, he⟩
    · exact ends_onLedger (Memory.ends_release_or_broken (fun _ => he) he)

theorem completes_scratch {b : Nat} {body : Unit → Pass α}
    (h : Completes (body ()) g ok refused broken) (herr : ∀ s, refused (.outOfMemory s) g) :
    Completes (scratch b body) g ok refused broken := by
  intro l hl
  refine ends_bind (ends_onLedger (Memory.ends_claim hl.coherent (fun l' h1 h2 h3 => ?_)
    ⟨⟨hl.coherent, rfl, rfl⟩, herr _⟩))
  exact ends_release_after hl h1 h2 h3 h

/-- The set that a search leaves claimed is given back however the rest ends. Searches are only
refused for lack of memory. -/
theorem completes_search {feed : Feed} {q : Query} {body : DocSet → Pass α}
    (h : ∀ docs l l', q.search feed.shard l = .ok docs l' →
      Completes (body docs) g ok refused broken)
    (herr : ∀ s, refused (.outOfMemory s) g) (hbroken : ¬ feed.shard.Ascending → broken) :
    Completes (onLedger (q.search feed.shard) >>= fun docs =>
      tryFinally (body docs) (onLedger (Memory.release feed.setBytes))) g ok refused broken := by
  intro l hl
  have hsecures := Query.search_secures feed.shard q l hl.coherent
  have hcosts := Query.search_costs feed.shard q l hl.coherent
  refine ends_bind (ends_onLedger ((hsecures.and hcosts).of_run.mono ?_ ?_))
  · rintro docs l' ⟨⟨⟨-, h1, h2⟩, -, hspent⟩, hrun⟩
    exact ends_release_after hl h1 h2 hspent.limit_eq (h docs l l' hrun)
  · rintro (e | _) l' ⟨he, hmemory⟩
    · obtain ⟨h1, h2⟩ := he
      obtain ⟨⟨s, rfl⟩, -, _, hspent⟩ := hmemory
      exact ⟨⟨h1, hspent.limit_eq, by simp only [h2]⟩, herr s⟩
    · exact hbroken he

theorem completes_replace {x : Nat} {ok : Unit → Grouping → Prop}
    (h : ok () (.constant x g.len)) : Completes (replace x) g ok refused broken := by
  refine completes_bind (completes_grouping ?_)
  intro l hl
  refine ends_bind
    (ends_onLedger (Memory.ends_release hl.coherent hl.bytes_le fun l' h1 h2 h3 => ?_))
  exact ends_modify ⟨⟨h1, h3, h2⟩, h⟩

theorem bytes_widened (g : Grouping) (m : Nat) :
    (Grouping.stored (g.widened m)).bytes = g.widenedBytes m := by
  show StoredGroups.bytesFor _ g.toList.toArray.size = StoredGroups.bytesFor _ g.len
  rw [List.size_toArray, Grouping.length_toList]
  rfl

/-- Room is made for documents that have ids. That breaks if the groups do not fit the wider words
or cannot be counted. -/
theorem completes_makeRoom_or {m : Nat} {ok : Unit → Grouping → Prop} (hlen : g.len ≤ maxId)
    (h : ok () (g.roomFor m)) (herr : ∀ s, refused (.outOfMemory s) g)
    (hbroken : g.widen? m = none → broken) : Completes (makeRoom m) g ok refused broken := by
  refine completes_bind (completes_grouping ?_)
  intro l hl
  unfold Grouping.roomFor at h
  by_cases hf : g.fits m
  · rw [if_pos hf] at h ⊢
    refine ends_modify ⟨⟨hl.coherent, rfl, ?_⟩, h⟩
    cases g <;> rfl
  · rw [if_neg hf] at h ⊢
    refine ends_bind (ends_orBroken (fun b hb => ?_) fun hnone => ?_)
    · obtain rfl := (word?_eq_some.mp hb).2
      -- both arrays are held between the claim and the release
      refine ends_bind (ends_onLedger (Memory.ends_claim hl.coherent (fun l1 h1 h2 hlimit => ?_)
        ⟨⟨hl.coherent, rfl, rfl⟩, herr _⟩))
      have hg := hl.bytes_le
      simp only at hg h2
      refine ends_bind (ends_orBroken (fun wider hwider => ?_) fun hnone => hbroken hnone)
      obtain rfl := Grouping.eq_widened_of_widen? hlen hwider
      refine ends_bind (ends_onLedger (Memory.ends_release h1 (by simp only; omega)
        fun l2 h3 h4 hlimit' => ?_))
      refine ends_modify ⟨⟨h3, hlimit'.trans hlimit, ?_⟩, h⟩
      simp only [bytes_widened] at h4 ⊢
      omega
    · cases (Grouping.word?_bytesFor hlen).symm.trans hnone

/-- Groups that can be counted always fit the wider words. -/
theorem completes_makeRoom {m numDocs : Nat} {ok : Unit → Grouping → Prop}
    (hg : g.Counted numDocs) (h : ok () (g.roomFor m)) (herr : ∀ s, refused (.outOfMemory s) g) :
    Completes (makeRoom m) g ok refused broken := by
  refine completes_makeRoom_or hg.len_le h herr fun hnone => ?_
  rw [hg.copyable.widen?_eq] at hnone
  cases hnone

/-! ### Changes -/

theorem completes_change {f : Grouping → Option Grouping} {ok : Unit → Grouping → Prop}
    (hok : ∀ g', f g = some g' → g'.bytes = g.bytes ∧ ok () g') (hnone : f g = none → broken) :
    Completes (change f) g ok refused broken := by
  refine completes_bind (completes_grouping (completes_bind (completes_orBroken
    (fun g' hg' => ?_) hnone)))
  obtain ⟨hbytes, hok⟩ := hok g' hg'
  intro l hl
  exact ends_modify ⟨⟨hl.coherent, rfl, by simp only [hbytes]⟩, hok⟩

theorem completes_recount {ok : Nat → Grouping → Prop}
    (hok : ∀ g', g.recount? = some g' → ok g'.numGroups g')
    (hnone : g.recount? = none → broken) : Completes recount g ok refused broken := by
  refine completes_bind (completes_change (fun g' hg' => ⟨Grouping.bytes_recount? hg', ?_⟩) hnone)
  exact completes_bind (completes_grouping (completes_pure (hok g' hg')))

theorem completes_unlessFilteredOut {body : Nat → Pass Nat} {ok : Nat → Grouping → Prop}
    (hout : g.numGroups ≤ 1 → ok g.numGroups g)
    (h : 1 < g.numGroups → Completes (body g.numGroups) g ok refused broken) :
    Completes (unlessFilteredOut body) g ok refused broken := by
  refine completes_bind (completes_grouping ?_)
  by_cases hn : g.numGroups ≤ 1
  · rw [if_pos hn]
    exact completes_pure (hout hn)
  · rw [if_neg hn]
    exact h (Nat.lt_of_not_le hn)

/-! ### Regroups -/

/-- A regroup that goes through leaves as many groups as can be counted. -/
def Concludes (x : Pass Nat) (g : Grouping) (refused : Error → Grouping → Prop) (broken : Prop) :
    Prop :=
  Completes x g (fun _ g' => g'.numGroups ≤ maxId) refused broken

variable {numDocs : Nat}

theorem concludes_unlessFilteredOut {body : Nat → Pass Nat} (hg : g.Counted numDocs)
    (h : 1 < g.numGroups → Concludes (body g.numGroups) g refused broken) :
    Concludes (unlessFilteredOut body) g refused broken :=
  completes_unlessFilteredOut (fun _ => hg.numGroups_le) h

theorem concludes_replace {x : Nat} (hx : x < maxId) :
    Concludes (replace x >>= fun _ => pure (x + 1)) g refused broken :=
  completes_bind (completes_replace (completes_pure hx))

/-- Once there is room for the groups up to `top`, a rewrite goes through if it can be worked out
and writes no group above `top`, unless that is too large to be counted. -/
theorem concludes_rewrite {c : Grouping → Option Grouping} {top m : Nat} (hg : g.Counted numDocs)
    (hm : top ≤ m) (htop : ¬ broken → top < maxId)
    (hc : ∀ g', c (g.roomFor m) = some g' → (g.roomFor m).Overwrites (· ≤ top) g')
    (hex : ¬ broken → (∀ x ≤ top, (g.roomFor m).Accepts x) → ∃ g', c (g.roomFor m) = some g') :
    Concludes (change c >>= fun _ => recount) (g.roomFor m) refused broken := by
  refine completes_bind (completes_change (fun g1 hg1 => ?_) fun hnone => ?_)
  · have ho := hc g1 hg1
    refine ⟨Grouping.bytes_eq_of_frame ho.frame_eq, completes_recount ?_ fun hnone => ?_⟩
    · exact fun g' hg' => Grouping.numGroups_le_of_recount? hg'
    · by_contra hb
      have hlt : g1.All (· < maxId) := by
        intro d x hx
        rcases ho.group d x hx with hx | hx
        · exact hg.roomFor_lt_maxId m d x hx
        · exact Nat.lt_of_le_of_lt hx (htop hb)
      obtain ⟨g', hg'⟩ := Grouping.exists_recount? hlt
        ((Grouping.isConstant_of_frame ho.frame_eq).trans (g.isConstant_roomFor m))
      rw [hnone] at hg'
      cases hg'
  · by_contra hb
    have hlt := htop hb
    obtain ⟨g', hg'⟩ := hex hb fun x hx => hg.accepts_roomFor (by omega) (by omega)
    rw [hnone] at hg'
    cases hg'

/-- A rewrite that moves one document after the other. -/
theorem concludes_moves {c : Grouping → Option Grouping} {f : Nat → Nat → Option Nat} {top : Nat}
    (hg : g.Counted numDocs) (htop : ¬ broken → top < maxId)
    (hc : c (g.roomFor top) =
      (List.range (g.roomFor top).len).foldlM (Grouping.move? f) (g.roomFor top))
    (hle : ∀ d x y, g.get? d = some x → f d x = some y → y ≤ top)
    (hf : ¬ broken → ∀ d < numDocs, ∀ x, g.get? d = some x → ∃ y, f d x = some y) :
    Concludes (change c >>= fun _ => recount) (g.roomFor top) refused broken := by
  refine concludes_rewrite hg (Nat.le_refl top) htop (fun g' hg' => ?_) fun hb haccepts => ?_
  · rw [hc] at hg'
    refine (Grouping.moves_of_range? hg').overwrites fun d x y hx hy => .inr ?_
    exact hle d x y ((Grouping.get?_roomFor g top d).symm.trans hx) hy
  · rw [hc]
    refine Grouping.exists_moves List.nodup_range (fun d => List.mem_range.mp) fun d hd x hx => ?_
    have hlen := (Grouping.len_roomFor g top).trans hg.len_eq
    rw [Grouping.get?_roomFor] at hx
    obtain ⟨y, hy⟩ := hf hb d (hlen ▸ List.mem_range.mp hd) x hx
    exact ⟨y, hy, haccepts y (hle d x y hx hy)⟩

end Pass

end Cohort
