import Cohort.Proofs.Grouping.Fitted
import Cohort.Proofs.Memory.Peak
import Cohort.Proofs.Session.Progress

/-!
# Making room — what it leaves, and when it is refused

`Grouping.Made` are the groupings that sessions have, those that are created for documents that have
ids, and what writes and more room lead to from there. However one was made, `Pass.makeRoom` leaves
all groups as they are, and it is refused only for want of the bytes of wider words while the old
ones are still held. Past the ids, that is lost.
-/

namespace Cohort

/-- A grouping of a session, or one that was created, after any number of writes. The documents of
the latter have ids, and so has the number of its groups. -/
inductive Grouping.Made : Grouping → Prop
  | session {shard : Shard} {config : Config} {x : Live} (hb : shard.Built)
      (h : Live.Reachable shard config x) : Made x.session.grouping
  | constant {group len : Nat} (h : group < maxId) (hlen : len ≤ maxId) :
      Made (.constant group len)
  | created {m len : Nat} {w w' : Workspace} (hlen : len ≤ maxId)
      (h : Pass.create m len w = .ok () w') : Made w'.grouping
  | set {g g' : Grouping} {doc group : Nat} (hg : Made g) (h : g.set? doc group = some g') : Made g'
  | setAll {g g' : Grouping} {docs groups : List Nat} (hg : Made g)
      (h : g.setAll? docs groups = some g') : Made g'
  | setSlice {g g' : Grouping} {start : Nat} {groups : List Nat} (hg : Made g)
      (h : g.setSlice? start groups = some g') : Made g'
  | splitBy {g g' : Grouping} {docs : DocSet} {split : Split} (hg : Made g)
      (h : g.splitBy? docs split = some g') : Made g'
  | recount {g g' : Grouping} (hg : Made g) (h : g.recount? = some g') : Made g'
  | room {m : Nat} {w w' : Workspace} (hg : Made w.grouping) (h : Pass.makeRoom m w = .ok () w') :
      Made w'.grouping

namespace Pass

open Grouping (Copyable Enlarged Made roomFor)
open Workspace (Paid Settled)

variable {m : Nat} {w w' : Workspace}

/-- Bytes of the words that `g` needs for group `m` as well. -/
theorem widenedBytes_eq (g : Grouping) (m : Nat) :
    g.widenedBytes m = g.len * (Width.fitting (max g.capacity m)).bytes := by
  unfold Grouping.widenedBytes StoredGroups.bytesFor
  rw [Nat.max_comm]

/-- Whether the words of `g` hold group `m`. -/
theorem fits_eq_false {g : Grouping} :
    g.fits m = false ↔ ∀ t, g = .stored t → t.width.maxGroup < m := by
  cases g with
  | constant => exact iff_of_true rfl nofun
  | stored s =>
    simp only [Grouping.fits, decide_eq_false_iff_not, Nat.not_le]
    exact ⟨fun h t ht => by cases ht; exact h, fun h => h s rfl⟩

/-- Wider words are claimed while the old ones are held. -/
theorem ends_makeRoom_of_widen? {wider : Grouping} (hw : w.Paid) (hf : w.grouping.fits m = false)
    (hword : word? (w.grouping.widenedBytes m) = some (w.grouping.widenedBytes m))
    (hwider : w.grouping.widen? m = some wider) (hbytes : wider.bytes = w.grouping.widenedBytes m) :
    Ends (makeRoom m) w
      (fun _ w' => Settled w w' ∧ w'.grouping = wider ∧
        w.ledger.Affords (w.grouping.widenedBytes m))
      (fun e w' => ¬ w.ledger.Affords (w.grouping.widenedBytes m) ∧
        e = .refused (.outOfMemory (w.ledger.shortage (w.grouping.widenedBytes m))) ∧ w' = w) := by
  refine ends_bind (ends_bind (ends_get (ends_pure ?_)))
  rw [hf, if_neg Bool.false_ne_true, hword, hwider]
  refine ends_bind (ends_pure (ends_bind (ends_onLedger ?_)))
  unfold Ends Memory.claim
  cases hl : w.ledger.claim? (w.grouping.widenedBytes m) with
  | none =>
    refine ⟨fun ha => ?_, rfl, rfl⟩
    rw [← Memory.Ledger.claim?_isSome_iff, hl] at ha
    cases ha
  | some l =>
    have ha := Memory.Ledger.claim?_isSome_iff.mp (Option.isSome_iff_exists.mpr ⟨l, hl⟩)
    obtain ⟨hcoh, hused⟩ := hw.coherent.claim? hl
    have hle := hw.bytes_le
    refine ends_bind (ends_pure (ends_bind (ends_onLedger (Memory.ends_release hcoh
      (by simp only; omega) fun l' hcoh' hused' hlimit' =>
        ends_modify ⟨⟨hcoh', ?_, ?_⟩, rfl, ha⟩))))
    · exact hlimit'.trans (Memory.Ledger.limit_claim? hl)
    · simp only [hbytes] at hused' ⊢
      omega

/-- Room is made at once where the words hold the group already; otherwise wider words are
claimed. -/
theorem ends_makeRoom (hw : w.Paid) (hg : w.grouping.Copyable) : Ends (makeRoom m) w
    (fun _ w' => Settled w w' ∧ w'.grouping = w.grouping.roomFor m ∧
      (w.grouping.fits m = false → w.ledger.Affords (w.grouping.widenedBytes m)))
    (fun e w' => w.grouping.fits m = false ∧ ¬ w.ledger.Affords (w.grouping.widenedBytes m) ∧
      e = .refused (.outOfMemory (w.ledger.shortage (w.grouping.widenedBytes m))) ∧ w' = w) := by
  unfold roomFor
  cases hf : w.grouping.fits m with
  | true =>
    refine ends_bind (ends_bind (ends_get (ends_pure ?_)))
    rw [hf]
    refine ends_modify ⟨⟨hw.coherent, rfl, ?_⟩, rfl, nofun⟩
    cases hg : w.grouping <;> rfl
  | false =>
    rw [if_neg Bool.false_ne_true]
    refine (ends_makeRoom_of_widen? hw hf (Grouping.word?_bytesFor hg.len_le) hg.widen?_eq
      (bytes_widened _ _)).mono ?_ fun _ _ he => ⟨rfl, he⟩
    exact fun _ _ ⟨hset, hwider, ha⟩ => ⟨hset, hwider, fun _ => ha⟩

/-- Whatever a charge does to the ledger, it leaves the grouping. -/
theorem ends_onLedger_any {α : Type} {x : Memory.Charge α} {ok : α → Workspace → Prop}
    {err : Failure → Workspace → Prop} (hok : ∀ a l, ok a { w with ledger := l })
    (herr : ∀ e l, err e { w with ledger := l }) : Ends (onLedger x) w ok err := by
  refine ends_onLedger ?_
  unfold Ends
  split
  · exact hok _ _
  · exact herr _ _

theorem grouping_of_create {len : Nat} (h : create m len w = .ok () w') :
    w'.grouping = .stored (.blank m len) := by
  have hrun : Ends (create m len) w (fun _ w' => w'.grouping = .stored (.blank m len))
      fun _ _ => True := by
    refine ends_bind (ends_bind (ends_get (ends_pure (ends_bind (ends_orBroken (fun b _ => ?_)
      fun _ => trivial)))))
    refine ends_bind (ends_onLedger_any (fun _ _ => ends_bind ?_) fun _ _ => trivial)
    exact ends_onLedger_any (fun _ _ => ends_modify rfl) fun _ _ => trivial
  exact hrun.ok_of h

theorem grouping_of_makeRoom (hlen : w.grouping.len ≤ maxId) (h : makeRoom m w = .ok () w') :
    w'.grouping = w.grouping.roomFor m := by
  have hrun : Ends (makeRoom m) w (fun _ w' => w'.grouping = w.grouping.roomFor m)
      fun _ _ => True := by
    refine ends_bind (ends_bind (ends_get (ends_pure ?_)))
    unfold roomFor
    by_cases hf : w.grouping.fits m
    · rw [if_pos hf, if_pos hf]
      exact ends_modify rfl
    · rw [if_neg hf, if_neg hf]
      refine ends_bind (ends_orBroken (fun b _ => ?_) fun _ => trivial)
      refine ends_bind (ends_onLedger_any (fun _ _ => ends_bind ?_) fun _ _ => trivial)
      refine ends_orBroken (fun wider hwider => ?_) fun _ => trivial
      rw [Grouping.eq_widened_of_widen? hlen hwider]
      refine ends_bind (ends_onLedger_any (fun _ _ => ends_modify rfl) fun _ _ => trivial)
  exact hrun.ok_of h

end Pass

/-- However a grouping was made, its groups can be copied into wider words. -/
theorem Grouping.Made.copyable {g : Grouping} (hg : g.Made) : g.Copyable := by
  induction hg with
  | session hb h => exact (h.counted hb).copyable
  | constant h hlen => exact copyable_constant h hlen
  | @created m len w w' hlen h =>
    rw [Pass.grouping_of_create h]
    exact copyable_blank m hlen
  | set _ h ih => exact ih.overwrites (overwrites_set? h)
  | setAll _ h ih => exact ih.overwrites (overwrites_setAll? h)
  | setSlice _ h ih => exact ih.overwrites (overwrites_setSlice? h)
  | splitBy _ h ih => exact ih.overwrites (overwrites_splitBy? h)
  | recount _ h ih => exact ih.recount? h
  | room _ h ih =>
    rw [Pass.grouping_of_makeRoom ih.len_le h]
    exact ih.roomFor _

/-- Making room leaves storage with the same groups, in the narrowest words that have room for group
`m` besides what there was room for, and changes what the ledger holds by the bytes of the storage.
It is refused exactly if words of their own or wider ones are needed and the ledger or its pool have
fewer bytes left than these take, with the old words still held; then nothing has changed. -/
theorem Pass.makeRoom_spec {w : Workspace} (hw : w.Paid) (hg : w.grouping.Made) (m : Nat) :
    (∀ w', makeRoom m w = .ok () w' → ∃ s, w'.grouping = .stored s ∧ w.grouping.Enlarged m s ∧
      w'.ledger.used + w.grouping.bytes = w.ledger.used + s.bytes) ∧
    (∀ e w', makeRoom m w = .error e w' → w' = w ∧ ∃ short, e = .refused (.outOfMemory short)) ∧
    ((∃ e w', makeRoom m w = .error e w') ↔
      (∀ t, w.grouping = .stored t → t.width.maxGroup < m) ∧
      (w.ledger.own.remaining <
          w.grouping.len * (Width.fitting (max w.grouping.capacity m)).bytes ∨
        ∃ p ∈ w.ledger.pool, p.remaining <
          w.grouping.len * (Width.fitting (max w.grouping.capacity m)).bytes)) := by
  have hroom := ends_makeRoom (m := m) hw hg.copyable
  rw [← fits_eq_false, ← widenedBytes_eq]
  refine ⟨fun w' h => ?_, fun e w' h => ?_, fun ⟨e, w', h⟩ => ?_, fun ⟨hf, hshort⟩ => ?_⟩
  · obtain ⟨hset, hroomFor, -⟩ := hroom.ok_of h
    obtain ⟨s, hs⟩ := w.grouping.exists_stored_roomFor m
    rw [hs] at hroomFor
    have hused := hset.used_add
    rw [hroomFor] at hused
    exact ⟨s, hroomFor, hg.copyable.enlarged hs, hused⟩
  · obtain ⟨-, -, he, hw'⟩ := hroom.err_of h
    exact ⟨hw', _, he⟩
  · obtain ⟨hf, hshort, -, -⟩ := hroom.err_of h
    refine ⟨hf, ?_⟩
    by_contra hno
    rw [not_or] at hno
    refine hshort ⟨Nat.le_of_not_lt hno.1, fun p hp => Nat.le_of_not_lt fun hlt => ?_⟩
    exact hno.2 ⟨p, hp, hlt⟩
  · cases h : makeRoom m w with
    | error e w' => exact ⟨e, w', rfl⟩
    | ok _ w' =>
      obtain ⟨-, -, ha⟩ := hroom.ok_of h
      obtain ⟨hown, hpool⟩ := ha hf
      rcases hshort with hlt | ⟨p, hp, hlt⟩
      · exact absurd hown (Nat.not_le_of_lt hlt)
      · exact absurd (hpool p hp) (Nat.not_le_of_lt hlt)

/-- The groups of `divided` are to have room for 300, for which they need words of two bytes: six
bytes, while the three of the old words are held. -/
theorem Pass.makeRoom_spec_divided :
    (∃ e w', makeRoom 300 ⟨⟨⟨1000, 35, 35⟩, some ⟨40, 35, 35⟩⟩, Live.divided.grouping⟩ =
      .error e w') ∧
    ∃ w', makeRoom 300 ⟨⟨⟨1000, 35, 35⟩, some ⟨41, 35, 35⟩⟩, Live.divided.grouping⟩ = .ok () w' ∧
      w'.ledger.used = 38 ∧ w'.grouping.get? 1 = some 2 := by
  have hmade : Live.divided.grouping.Made := .session Live.built_ages Live.reachable_divided
  have hpaid : ∀ limit, 35 ≤ limit →
      Workspace.Paid ⟨⟨⟨1000, 35, 35⟩, some ⟨limit, 35, 35⟩⟩, Live.divided.grouping⟩ := by
    intro limit hlimit
    refine ⟨⟨Nat.le_refl 35, show 35 ≤ 1000 by decide, ?_, ?_⟩, show 3 ≤ 35 by decide⟩
    · rintro p hp
      cases hp
      exact Nat.le_refl 35
    · rintro p hp
      cases hp
      exact hlimit
  refine ⟨?_, ?_⟩
  · refine (Pass.makeRoom_spec (hpaid 40 (by decide)) hmade 300).2.2.mpr ⟨?_, .inr ⟨_, rfl, ?_⟩⟩
    · rintro t ht
      cases ht
      decide
    · decide
  · obtain ⟨w', hrun⟩ : ∃ w', makeRoom 300
        ⟨⟨⟨1000, 35, 35⟩, some ⟨41, 35, 35⟩⟩, Live.divided.grouping⟩ = .ok () w' := ⟨_, by rfl⟩
    obtain ⟨s, hs, hlarge, hused⟩ := (Pass.makeRoom_spec (hpaid 41 (by decide)) hmade 300).1 w' hrun
    refine ⟨w', hrun, ?_, ?_⟩
    · cases hrun
      rfl
    · rw [hs]
      exact hlarge.get?_eq 1

/-- Past the ids, room is not made as it should be, however much memory there is: the groups of a
grouping that has put all documents in the largest one cannot be counted, the bytes of too many
words are no number of 64 bits, and a document whose number is cut to 32 bits loses its group. -/
theorem Pass.makeRoom_past_ids :
    (∃ w', makeRoom 1 ⟨.fresh 1000 none, .constant maxId 1⟩ = .error .broken w') ∧
    (∃ w', makeRoom 70000 ⟨.fresh (wordBound - 1) none, .constant 1 0x4000_0000_0000_0000⟩ =
      .error .broken w') ∧
    ∃ w', makeRoom 1 ⟨.fresh wordBound none, .constant 1 halfWordBound⟩ = .ok () w' ∧
      Grouping.get? (.constant 1 halfWordBound) 0 = some 1 ∧ w'.grouping.get? 0 = some 0 := by
  refine ⟨⟨_, rfl⟩, ⟨_, rfl⟩, ?_⟩
  have hlost : (Grouping.constant 1 halfWordBound).widen? 1 =
      some (.stored ⟨.byte, 1, 2, .replicate halfWordBound 0⟩) :=
    Grouping.widen?_of_copied_nil rfl rfl
  have hpaid : Workspace.Paid ⟨.fresh wordBound none, .constant 1 halfWordBound⟩ :=
    ⟨Memory.Ledger.coherent_fresh wordBound none, Nat.zero_le _⟩
  have hbytes : Grouping.bytes (.stored ⟨.byte, 1, 2, .replicate halfWordBound 0⟩) =
      Grouping.widenedBytes (.constant 1 halfWordBound) 1 := by
    show StoredGroups.bytesFor .byte (Array.replicate halfWordBound 0).size = _
    rw [Array.size_replicate]
    rfl
  have hends := ends_makeRoom_of_widen? hpaid rfl rfl hlost hbytes
  cases hrun : makeRoom 1 ⟨.fresh wordBound none, .constant 1 halfWordBound⟩ with
  | error e w' => exact absurd ⟨by decide, nofun⟩ (hends.err_of hrun).1
  | ok _ w' =>
    refine ⟨w', rfl, rfl, ?_⟩
    rw [(hends.ok_of hrun).2.1]
    simp [Grouping.get?]

end Cohort
