import Cohort.Proofs.Grouping.Complete

/-!
# Passes — what a pass ensures if no check breaks

`Pass.Ensures x g ok refused` is completion without a word on broken checks, after which nothing
runs. `Pass.Regroups` is what every regroup of a well-formed grouping ensures. `Pass.Sends` adds
where the documents go if every one is judged on its own. `Pass.Spares` is what regroups ensure that
do not target group 0, and `Pass.Idles` what all of them do once every document is in it.
-/

namespace Cohort

namespace Pass

open Workspace (Paid Settled)

variable {α β : Type} {g : Grouping} {ok : α → Grouping → Prop}
  {refused : Error → Grouping → Prop}

/-- What `x` does to `g`, whatever coherent ledger pays for it. -/
def Ensures (x : Pass α) (g : Grouping) (ok : α → Grouping → Prop)
    (refused : Error → Grouping → Prop) : Prop :=
  ∀ l : Memory.Ledger, Paid ⟨l, g⟩ →
    Ends x ⟨l, g⟩ (fun a w => Settled ⟨l, g⟩ w ∧ ok a w.grouping)
      (OnRefusal fun e w => Settled ⟨l, g⟩ w ∧ refused e w.grouping)

theorem ensures_iff {x : Pass α} : Ensures x g ok refused ↔ Completes x g ok refused True := by
  unfold Ensures Completes
  simp only [onFailure_true]

theorem Ensures.mono {x : Pass α} {ok' : α → Grouping → Prop} (h : Ensures x g ok refused)
    (hok : ∀ a g', ok a g' → ok' a g') : Ensures x g ok' refused :=
  ensures_iff.mpr ((ensures_iff.mp h).mono hok (fun _ _ he => he) id)

theorem ensures_pure {a : α} (h : ok a g) : Ensures (pure a) g ok refused :=
  ensures_iff.mpr (completes_pure h)

theorem ensures_refusal {e : Error} (h : refused e g) :
    Ensures (throw (.refused e)) g ok refused :=
  ensures_iff.mpr (completes_refusal h)

theorem ensures_bind {x : Pass β} {f : β → Pass α}
    (h : Ensures x g (fun b g' => Ensures (f b) g' ok refused) refused) :
    Ensures (x >>= f) g ok refused := by
  simp only [ensures_iff] at h ⊢
  exact completes_bind h

theorem ensures_grouping {ok : Grouping → Grouping → Prop} (h : ok g g) :
    Ensures grouping g ok refused :=
  ensures_iff.mpr (completes_grouping h)

theorem ensures_orBroken {o : Option α} (h : ∀ a, o = some a → ok a g) :
    Ensures (orBroken o) g ok refused :=
  ensures_iff.mpr (completes_orBroken h fun _ => trivial)

theorem ensures_orRefused {r : Except Error α} (hok : ∀ a, r = .ok a → ok a g)
    (herr : ∀ e, refused e g) : Ensures (orRefused r) g ok refused :=
  ensures_iff.mpr (completes_orRefused hok fun e _ => herr e)

theorem ensures_orFail {r : Except Failure α} (hok : ∀ a, r = .ok a → ok a g)
    (herr : ∀ e, refused e g) : Ensures (Regroup.orFail r) g ok refused :=
  ensures_iff.mpr (completes_orFail hok (fun e _ => herr e) fun _ => trivial)

theorem ensures_scratch {b : Nat} {body : Unit → Pass α} (h : Ensures (body ()) g ok refused)
    (herr : ∀ e, refused e g) : Ensures (scratch b body) g ok refused :=
  ensures_iff.mpr (completes_scratch (ensures_iff.mp h) fun _ => herr _)

/-- The set that a search leaves claimed is given back however the rest ends. -/
theorem ensures_search {feed : Feed} {q : Query} {body : DocSet → Pass α}
    (h : ∀ docs, Ensures (body docs) g ok refused) (herr : ∀ e, refused e g) :
    Ensures (onLedger (q.search feed.shard) >>= fun docs =>
      tryFinally (body docs) (onLedger (Memory.release feed.setBytes))) g ok refused :=
  ensures_iff.mpr (completes_search (fun docs _ _ _ => ensures_iff.mp (h docs)) (fun _ => herr _)
    fun _ => trivial)

theorem ensures_replace {x : Nat} {ok : Unit → Grouping → Prop}
    (h : ok () (.constant x g.len)) : Ensures (replace x) g ok refused :=
  ensures_iff.mpr (completes_replace h)

theorem ensures_makeRoom {m : Nat} {ok : Unit → Grouping → Prop} (hlen : g.len ≤ maxId)
    (h : ok () (g.roomFor m)) (herr : ∀ e, refused e g) : Ensures (makeRoom m) g ok refused :=
  ensures_iff.mpr (completes_makeRoom_or hlen h (fun _ => herr _) fun _ => trivial)

theorem ensures_change {f : Grouping → Option Grouping} {ok : Unit → Grouping → Prop}
    (h : ∀ g', f g = some g' → g'.bytes = g.bytes ∧ ok () g') :
    Ensures (change f) g ok refused :=
  ensures_iff.mpr (completes_change h fun _ => trivial)

theorem ensures_recount {ok : Nat → Grouping → Prop}
    (h : ∀ g', g.recount? = some g' → ok g'.numGroups g') : Ensures recount g ok refused :=
  ensures_iff.mpr (completes_recount h fun _ => trivial)

theorem ensures_unlessFilteredOut {body : Nat → Pass Nat} {ok : Nat → Grouping → Prop}
    (hout : g.numGroups ≤ 1 → ok g.numGroups g)
    (h : 1 < g.numGroups → Ensures (body g.numGroups) g ok refused) :
    Ensures (unlessFilteredOut body) g ok refused :=
  ensures_iff.mpr (completes_unlessFilteredOut hout fun hn => ensures_iff.mp (h hn))

/-! ### Regroups -/

/-- A regroup of a well-formed grouping leaves one that has the number of groups it reports; if it
is refused, no document has moved. -/
def Regroups (numDocs : Nat) (x : Pass Nat) (g : Grouping) : Prop :=
  Ensures x g (fun n g' => g'.WellFormed numDocs ∧ g'.numGroups = n)
    (fun _ g' => g.Unmoved numDocs g')

variable {numDocs : Nat}

/-- A rewrite within the capacity and the recount after it. -/
theorem ensures_rewrite {f : Grouping → Option Grouping} {ok : Nat → Grouping → Prop}
    (hg : g.Roomy numDocs)
    (hf : ∀ g', f g = some g' → g.Overwrites (· ≤ g.capacity) g')
    (hok : ∀ g1 g', f g = some g1 → g'.WellFormed numDocs → (∀ d, g'.get? d = g1.get? d) →
      ok g'.numGroups g') :
    Ensures (change f >>= fun _ => recount) g ok refused := by
  refine ensures_bind (ensures_change fun g1 hg1 => ?_)
  have ho := hf g1 hg1
  refine ⟨Grouping.bytes_eq_of_frame ho.frame_eq, ensures_recount fun g' hg' => ?_⟩
  exact hok g1 g' hg1 ((hg.overwrites ho).recount? hg') (Grouping.get?_recount? hg')

theorem regroups_change {g0 : Grouping} {f : Grouping → Option Grouping} (hg : g.Roomy numDocs)
    (hf : ∀ g', f g = some g' → g.Overwrites (· ≤ g.capacity) g') :
    Ensures (change f >>= fun _ => recount) g
      (fun n g' => g'.WellFormed numDocs ∧ g'.numGroups = n)
      (fun _ g' => g0.Unmoved numDocs g') :=
  ensures_rewrite hg hf fun _ _ _ hwf _ => ⟨hwf, rfl⟩

/-- Room that is refused leaves the documents in place. -/
theorem regroups_makeRoom {m : Nat} {rest : Unit → Pass Nat} (hg : g.WellFormed numDocs)
    (h : Ensures (rest ()) (g.roomFor m) (fun n g' => g'.WellFormed numDocs ∧ g'.numGroups = n)
      (fun _ g' => g.Unmoved numDocs g')) :
    Regroups numDocs (makeRoom m >>= rest) g :=
  ensures_bind (ensures_makeRoom hg.len_le h fun _ => hg.unmoved)

theorem regroups_unlessFilteredOut {body : Nat → Pass Nat} (hg : g.WellFormed numDocs)
    (h : 1 < g.numGroups → Regroups numDocs (body g.numGroups) g) :
    Regroups numDocs (unlessFilteredOut body) g :=
  ensures_unlessFilteredOut (fun _ => ⟨hg, rfl⟩) h

/-- A check before the rest of a regroup. -/
theorem regroups_orRefused_bind {r : Except Error β} {rest : β → Pass Nat}
    (hg : g.WellFormed numDocs) (h : ∀ b, r = .ok b → Regroups numDocs (rest b) g) :
    Regroups numDocs (orRefused r >>= rest) g :=
  ensures_bind (ensures_orRefused h fun _ => hg.unmoved)

/-- Replacing the grouping by a constant one. -/
theorem regroups_replace (x : Nat) (hg : g.WellFormed numDocs) :
    Regroups numDocs (replace x >>= fun _ => pure (x + 1)) g := by
  refine ensures_bind (ensures_replace (ensures_pure ⟨?_, rfl⟩))
  rw [hg.len_eq]
  exact Grouping.wellFormed_constant x hg.numDocs_le

/-! ### Regroups that judge every document on its own -/

/-- What is left of `g` once all documents went where `f` sends them, with `n` groups reported. -/
structure Sent (numDocs : Nat) (f : Nat → Nat → Option Nat) (g : Grouping) (n : Nat)
    (g' : Grouping) : Prop where
  wellFormed : g'.WellFormed numDocs
  numGroups_eq : g'.numGroups = n
  follows : g.Follows f g'

/-- A regroup that sends every document where `f` says. -/
def Sends (numDocs : Nat) (f : Nat → Nat → Option Nat) (x : Pass Nat) (g : Grouping) : Prop :=
  Ensures x g (Sent numDocs f g) (fun _ g' => g.Unmoved numDocs g')

variable {f : Nat → Nat → Option Nat}

theorem Sends.mono {f' : Nat → Nat → Option Nat} {x : Pass Nat} (h : Sends numDocs f x g)
    (hf : ∀ d x y, f' d x = some y → f d x = some y) : Sends numDocs f' x g :=
  Ensures.mono h fun _ _ hs => ⟨hs.wellFormed, hs.numGroups_eq, hs.follows.mono hf⟩

/-- A regroup that sends documents somewhere is a regroup. -/
theorem Sends.regroups {x : Pass Nat} (h : Sends numDocs f x g) : Regroups numDocs x g :=
  Ensures.mono h fun _ _ hs => ⟨hs.wellFormed, hs.numGroups_eq⟩

theorem sends_orRefused_bind {r : Except Error β} {rest : β → Pass Nat} (hg : g.WellFormed numDocs)
    (h : ∀ b, r = .ok b → Sends numDocs f (rest b) g) :
    Sends numDocs f (orRefused r >>= rest) g :=
  ensures_bind (ensures_orRefused h fun _ => hg.unmoved)

theorem sends_orBroken_bind {o : Option β} {rest : β → Pass Nat}
    (h : ∀ b, o = some b → Sends numDocs f (rest b) g) : Sends numDocs f (orBroken o >>= rest) g :=
  ensures_bind (ensures_orBroken h)

/-- With all documents in group 0, nothing has to be sent anywhere. -/
theorem sends_unlessFilteredOut {body : Nat → Pass Nat} (hg : g.WellFormed numDocs)
    (hf : ∀ d y, f d 0 = some y → y = 0)
    (h : 1 < g.numGroups → Sends numDocs f (body g.numGroups) g) :
    Sends numDocs f (unlessFilteredOut body) g := by
  refine ensures_unlessFilteredOut (fun hn => ⟨hg, rfl, fun d x y hx hy => ?_⟩) h
  have hlt := hg.lt_numGroups d x hx
  obtain rfl : x = 0 := by omega
  rw [hf d y hy, hx]

/-- All documents are sent to the same group. -/
theorem sends_replace {z : Nat} (hg : g.WellFormed numDocs)
    (hf : ∀ d x y, g.get? d = some x → f d x = some y → y = z) :
    Sends numDocs f (replace z >>= fun _ => pure (z + 1)) g := by
  refine ensures_bind (ensures_replace (ensures_pure ⟨?_, rfl, fun d x y hx hy => ?_⟩))
  · rw [hg.len_eq]
    exact Grouping.wellFormed_constant z hg.numDocs_le
  · rw [hf d x y hx hy]
    exact if_pos (Grouping.lt_len_of_get? hx)

/-- The groups are counted again after all documents went to the same one. -/
theorem sends_replace_recount {z : Nat} (hg : g.WellFormed numDocs)
    (hf : ∀ d x y, g.get? d = some x → f d x = some y → y = z) :
    Sends numDocs f (replace z >>= fun _ => recount) g := by
  refine ensures_bind (ensures_replace (ensures_recount fun g' hg' => ⟨?_, rfl, ?_⟩))
  · rw [hg.len_eq] at hg'
    exact (Grouping.wellFormed_constant z hg.numDocs_le).toRoomy.recount? hg'
  · intro d x y hx hy
    rw [Grouping.get?_recount? hg', hf d x y hx hy]
    exact if_pos (Grouping.lt_len_of_get? hx)

/-- The storage of `g`, with room for the groups that documents are sent to, is rewritten. -/
theorem sends_rewrite {m : Nat} {c : Grouping → Option Grouping} (hg : g.WellFormed numDocs)
    (hc : ∀ g', c (g.roomFor m) = some g' →
      Grouping.Moves f (List.range (g.roomFor m).len) (g.roomFor m) g')
    (hf : ∀ d x y, g.get? d = some x → f d x = some y → y ≤ m) :
    Ensures (change c >>= fun _ => recount) (g.roomFor m) (Sent numDocs f g)
      (fun _ g' => g.Unmoved numDocs g') := by
  refine ensures_rewrite (hg.toRoomy.roomFor m) (fun g' hg' => ?_) fun g1 g' hg1 hwf hget => ?_
  · refine (hc g' hg').overwrites fun d x y hx hy => .inr ?_
    rw [Grouping.get?_roomFor] at hx
    exact Grouping.le_capacity_roomFor _ (hf d x y hx hy)
  · refine ⟨hwf, rfl, fun d x y hx hy => ?_⟩
    rw [hget]
    exact (hc g1 hg1).follows d x y ((Grouping.get?_roomFor g m d).trans hx) hy

/-- Room that is refused leaves the documents in place. -/
theorem sends_makeRoom_bind {m : Nat} {rest : Unit → Pass Nat} (hg : g.WellFormed numDocs)
    (h : Ensures (rest ()) (g.roomFor m) (Sent numDocs f g) (fun _ g' => g.Unmoved numDocs g')) :
    Sends numDocs f (makeRoom m >>= rest) g :=
  ensures_bind (ensures_makeRoom hg.len_le h fun _ => hg.unmoved)

/-! ### Regroups that leave group 0 alone -/

/-- No document leaves group 0. -/
def Spares (x : Pass Nat) (g : Grouping) : Prop :=
  Ensures x g (fun _ g' => g.Spares g') fun _ _ => True

theorem spares_orRefused_bind {r : Except Error β} {f : β → Pass Nat}
    (h : ∀ b, r = .ok b → Spares (f b) g) : Spares (orRefused r >>= f) g :=
  ensures_bind (ensures_orRefused h fun _ => trivial)

theorem spares_orBroken_bind {o : Option β} {f : β → Pass Nat}
    (h : ∀ b, o = some b → Spares (f b) g) : Spares (orBroken o >>= f) g :=
  ensures_bind (ensures_orBroken h)

theorem spares_scratch {b : Nat} {body : Unit → Pass Nat} (h : Spares (body ()) g) :
    Spares (scratch b body) g :=
  ensures_scratch h fun _ => trivial

theorem spares_unlessFilteredOut {body : Nat → Pass Nat}
    (h : 1 < g.numGroups → Spares (body g.numGroups) g) : Spares (unlessFilteredOut body) g :=
  ensures_unlessFilteredOut (fun _ => .refl g) h

theorem spares_makeRoom_bind {m : Nat} {rest : Unit → Pass Nat} (hlen : g.len ≤ maxId)
    (h : Spares (rest ()) (g.roomFor m)) : Spares (makeRoom m >>= rest) g := by
  have hroom : g.Spares (g.roomFor m) := Grouping.spares_of_get? (Grouping.get?_roomFor g m)
  exact ensures_bind
    (ensures_makeRoom hlen (h.mono fun _ _ hg' => hroom.trans hg') fun _ => trivial)

/-- A rewrite that moves no document out of group 0, and the recount after it. -/
theorem spares_rewrite {c : Grouping → Option Grouping}
    (hc : ∀ g', c g = some g' → Grouping.Moves f (List.range g.len) g g')
    (hf : ∀ d y, f d 0 = some y → y = 0) : Spares (change c >>= fun _ => recount) g := by
  refine ensures_bind (ensures_change fun g1 hg1 => ?_)
  have hmoves := hc g1 hg1
  refine ⟨Grouping.bytes_eq_of_frame hmoves.frame_eq, ensures_recount fun g' hg' => ?_⟩
  exact (hmoves.spares hf).trans (Grouping.spares_of_get? (Grouping.get?_recount? hg'))

/-- All documents go to group 0. -/
theorem spares_replace : Spares (replace 0 >>= fun _ => pure 1) g :=
  ensures_bind (ensures_replace (ensures_pure fun _ hd => if_pos (Grouping.lt_len_of_get? hd)))

/-! ### Regroups with nothing left to move -/

/-- The pass reports one group or is refused, and either way leaves all as it was. -/
def Idles (x : Pass Nat) (g : Grouping) : Prop :=
  ∀ l : Memory.Ledger, Ends x ⟨l, g⟩ (fun n w => n = 1 ∧ w = ⟨l, g⟩)
    (OnFailure (fun _ w => w = ⟨l, g⟩) False)

theorem idles_orRefused_bind {r : Except Error β} {f : β → Pass Nat}
    (h : ∀ b, r = .ok b → Idles (f b) g) : Idles (orRefused r >>= f) g :=
  fun l => ends_bind (ends_orRefused (fun b hb => h b hb l) fun _ _ => rfl)

theorem idles_grouping_bind {f : Grouping → Pass Nat} (h : Idles (f g) g) :
    Idles (grouping >>= f) g :=
  fun l => ends_bind (ends_bind (ends_get (ends_pure (h l))))

theorem idles_unlessFilteredOut {body : Nat → Pass Nat} (hn : g.numGroups = 1) :
    Idles (unlessFilteredOut body) g := by
  refine idles_grouping_bind fun l => ?_
  rw [hn]
  exact ends_pure ⟨rfl, rfl⟩

end Pass

end Cohort
