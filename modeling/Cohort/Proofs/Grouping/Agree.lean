import Cohort.Proofs.Grouping.Pass

/-!
# Agreement — two passes over the same grouping

`Pass.Agrees strict x y g`: run on grouping `g`, each over a coherent ledger that holds its bytes,
`x` and `y` end alike and with the same grouping. The passes are mostly the same one, fed through
buffers of different sizes. One rule per operation.
-/

namespace Cohort.Pass

open Workspace (Paid Settled)
open Memory.Ledger (Footing)

variable {α β : Type} {strict : Prop} {g : Grouping}

/-- The same grouping over ledgers that can be charged alike. -/
def Meets (strict : Prop) (w w' : Workspace) : Prop :=
  w.grouping = w'.grouping ∧ Footing strict w.ledger w'.ledger

/-- A pass that settles what it charges, whatever it does to the grouping. -/
abbrev Settles (x : Pass α) (g : Grouping) : Prop :=
  Ensures x g (fun _ _ => True) (fun _ _ => True)

structure Agrees (strict : Prop) (x y : Pass α) (g : Grouping) : Prop where
  left : Settles x g
  right : Settles y g
  alike : ∀ l l' : Memory.Ledger, Paid ⟨l, g⟩ → Paid ⟨l', g⟩ → Footing strict l l' →
    Alike strict (Meets strict) (x ⟨l, g⟩) (y ⟨l', g⟩)

theorem agrees_pure (a : α) : Agrees strict (pure a) (pure a) g :=
  ⟨ensures_pure trivial, ensures_pure trivial, fun _ _ _ _ h => alike_pure ⟨rfl, h⟩⟩

theorem agrees_refusal (e : Error) :
    Agrees strict (throw (.refused e) : Pass α) (throw (.refused e)) g :=
  ⟨ensures_refusal trivial, ensures_refusal trivial, fun _ _ _ _ h => alike_throw ⟨rfl, h⟩⟩

/-- What follows a pass agrees on what the pass ensures. -/
theorem agrees_bind {x : Pass β} {f f' : β → Pass α} {ok : β → Grouping → Prop}
    (hx : Ensures x g ok fun _ _ => True) (hself : Agrees strict x x g)
    (h : ∀ b g', ok b g' → Agrees strict (f b) (f' b) g') :
    Agrees strict (x >>= f) (x >>= f') g := by
  refine ⟨ensures_bind (hx.mono fun b g' hb => (h b g' hb).left),
    ensures_bind (hx.mono fun b g' hb => (h b g' hb).right), fun l l' hl hl' hfoot => ?_⟩
  refine alike_bind (hself.alike l l' hl hl' hfoot) ?_
  rintro b ⟨k, g1⟩ ⟨k', g1'⟩ ⟨hg, hk⟩ hrun hrun'
  obtain ⟨hset, hok⟩ := (hx l hl).ok_of hrun
  obtain ⟨hset', -⟩ := (hx l' hl').ok_of hrun'
  obtain rfl : g1 = g1' := hg
  exact (h b g1 hok).alike k k' (hset.paid hl) (hset'.paid hl') hk

theorem agrees_grouping {f f' : Grouping → Pass α} (h : Agrees strict (f g) (f' g) g) :
    Agrees strict (grouping >>= f) (grouping >>= f') g := by
  have hx : Ensures grouping g (fun b g' => b = g ∧ g' = g) fun _ _ => True :=
    ensures_grouping ⟨rfl, rfl⟩
  have hself : Agrees strict grouping grouping g :=
    ⟨ensures_grouping trivial, ensures_grouping trivial, fun _ _ _ _ hfoot => .ok ⟨rfl, hfoot⟩⟩
  refine agrees_bind hx hself ?_
  rintro _ _ ⟨rfl, rfl⟩
  exact h

theorem agrees_orBroken (o : Option α) : Agrees strict (orBroken o) (orBroken o) g :=
  ⟨ensures_orBroken fun _ _ => trivial, ensures_orBroken fun _ _ => trivial,
    fun _ _ _ _ h => alike_orBroken ⟨rfl, h⟩⟩

theorem agrees_orBroken_bind {o : Option β} {f f' : β → Pass α}
    (h : ∀ b, o = some b → Agrees strict (f b) (f' b) g) :
    Agrees strict (orBroken o >>= f) (orBroken o >>= f') g := by
  have hx : Ensures (orBroken o) g (fun b g' => o = some b ∧ g' = g) fun _ _ => True :=
    ensures_orBroken fun b hb => ⟨hb, rfl⟩
  refine agrees_bind hx (agrees_orBroken o) ?_
  rintro b _ ⟨hb, rfl⟩
  exact h b hb

theorem agrees_orRefused (r : Except Error α) : Agrees strict (orRefused r) (orRefused r) g :=
  ⟨ensures_orRefused (fun _ _ => trivial) fun _ => trivial,
    ensures_orRefused (fun _ _ => trivial) fun _ => trivial,
    fun _ _ _ _ h => alike_orRefused ⟨rfl, h⟩⟩

theorem agrees_orRefused_bind {r : Except Error β} {f f' : β → Pass α}
    (h : ∀ b, r = .ok b → Agrees strict (f b) (f' b) g) :
    Agrees strict (orRefused r >>= f) (orRefused r >>= f') g := by
  have hx : Ensures (orRefused r) g (fun b g' => r = .ok b ∧ g' = g) fun _ _ => True :=
    ensures_orRefused (fun b hb => ⟨hb, rfl⟩) fun _ => trivial
  refine agrees_bind hx (agrees_orRefused r) ?_
  rintro b _ ⟨hb, rfl⟩
  exact h b hb

theorem agrees_orFail_bind {r : Except Failure β} {f f' : β → Pass α}
    (h : ∀ b, r = .ok b → Agrees strict (f b) (f' b) g) :
    Agrees strict (Regroup.orFail r >>= f) (Regroup.orFail r >>= f') g := by
  have hx : Ensures (Regroup.orFail r) g (fun b g' => r = .ok b ∧ g' = g) fun _ _ => True :=
    ensures_orFail (fun b hb => ⟨hb, rfl⟩) fun _ => trivial
  have hself : Agrees strict (Regroup.orFail r) (Regroup.orFail r) g := by
    refine ⟨ensures_orFail (fun _ _ => trivial) fun _ => trivial,
      ensures_orFail (fun _ _ => trivial) fun _ => trivial, fun _ _ _ _ hfoot => ?_⟩
    cases r with
    | ok b => exact .ok ⟨rfl, hfoot⟩
    | error e => exact alike_throw ⟨rfl, hfoot⟩
  refine agrees_bind hx hself ?_
  rintro b _ ⟨hb, rfl⟩
  exact h b hb

/-! ### The ledger -/

theorem alike_onLedger {x y : Memory.Charge α} {w w' : Workspace} (hg : w.grouping = w'.grouping)
    (h : Alike strict (Footing strict) (x w.ledger) (y w'.ledger)) :
    Alike strict (Meets strict) (onLedger x w) (onLedger y w') := by
  unfold onLedger
  generalize x w.ledger = r at h
  generalize y w'.ledger = r' at h
  cases h with
  | ok h => exact .ok ⟨hg, h⟩
  | refused h => exact .refused ⟨hg, h⟩
  | broken => exact .broken
  | leftShort => exact .leftShort
  | rightShort h => exact .rightShort h

theorem onLedger_ok {x : Memory.Charge α} {w w' : Workspace} {a : α}
    (h : onLedger x w = .ok a w') : x w.ledger = .ok a w'.ledger ∧ w'.grouping = w.grouping := by
  unfold onLedger at h
  split at h
  · rename_i hx
    cases h
    exact ⟨hx, rfl⟩
  · cases h

section Held

variable {l m : Memory.Ledger} {b : Nat}

/-- A grouping that is paid for stays so when more is claimed. -/
theorem paid_of_claimed (hl : Paid ⟨l, g⟩) (hm : m.Coherent ∧ m.used = l.used + b) :
    Paid ⟨m, g⟩ := by
  have hle := hl.bytes_le
  simp only at hle
  exact ⟨hm.1, by simp only; omega⟩

/-- Whatever a pass does, the ledger holds the bytes that were claimed for it beforehand. -/
theorem Settles.holds {x : Pass α} (hx : Settles x g) (hl : Paid ⟨l, g⟩)
    (hm : m.Coherent ∧ m.used = l.used + b) :
    Ends x ⟨m, g⟩ (fun _ w => w.ledger.Coherent ∧ b ≤ w.ledger.used)
      (OnRefusal fun _ w => w.ledger.Coherent ∧ b ≤ w.ledger.used) := by
  have hle := hl.bytes_le
  have hheld : ∀ {w : Workspace}, Settled ⟨m, g⟩ w →
      w.ledger.Coherent ∧ b ≤ w.ledger.used := by
    intro w hw
    have hadd := hw.used_add
    simp only at hle hadd
    exact ⟨hw.coherent, by omega⟩
  refine (hx m (paid_of_claimed hl hm)).mono (fun _ w hw => hheld hw.1) ?_
  rintro (e | _) w hw
  · exact hheld hw.1
  · trivial

theorem exists_onLedger_release {w : Workspace} (hw : w.ledger.Coherent ∧ b ≤ w.ledger.used) :
    ∃ v, onLedger (Memory.release b) w = .ok () v := by
  obtain ⟨n, hn⟩ := Memory.exists_release hw.1 hw.2
  exact ⟨_, by unfold onLedger; rw [hn]⟩

theorem onLedger_release_cases (b : Nat) (w : Workspace) :
    (∃ v, onLedger (Memory.release b) w = .ok () v) ∨
      onLedger (Memory.release b) w = .error .broken w := by
  rcases Memory.release_cases b w.ledger with ⟨n, hn⟩ | hn
  · exact .inl ⟨_, by unfold onLedger; rw [hn]⟩
  · exact .inr (by unfold onLedger; rw [hn])

end Held

/-- Bytes claimed beforehand are given back by both passes, however they end. -/
theorem alike_release_after {x y : Pass α} (h : Agrees strict x y g) {l l' m m' : Memory.Ledger}
    {b b' : Nat} (hl : Paid ⟨l, g⟩) (hl' : Paid ⟨l', g⟩) (hm : m.Coherent ∧ m.used = l.used + b)
    (hm' : m'.Coherent ∧ m'.used = l'.used + b') (hfoot : Footing strict m m')
    (hb : strict → b' = b) :
    Alike strict (Meets strict) (tryFinally x (onLedger (Memory.release b)) ⟨m, g⟩)
      (tryFinally y (onLedger (Memory.release b')) ⟨m', g⟩) := by
  have halike := h.alike m m' (paid_of_claimed hl hm) (paid_of_claimed hl' hm') hfoot
  refine alike_finally halike (h.left.holds hl hm) (h.right.holds hl' hm')
    (fun _ => exists_onLedger_release) (fun _ => exists_onLedger_release) ?_
    (onLedger_release_cases b) (onLedger_release_cases b')
  rintro t t' w w' - hcoh' ⟨hg, hfoot⟩ hw hw'
  obtain ⟨hw, hgw⟩ := onLedger_ok hw
  obtain ⟨hw', hgw'⟩ := onLedger_ok hw'
  exact ⟨hgw.trans (hg.trans hgw'.symm), Memory.footing_release hfoot hcoh'.1 hw hw' hb⟩

/-- Passes that hold bytes while they run; strict runs hold the same number of them. -/
theorem agrees_scratch {b b' : Nat} {body body' : Unit → Pass α} (hb : strict → b' = b)
    (h : Agrees strict (body ()) (body' ()) g) :
    Agrees strict (scratch b body) (scratch b' body') g := by
  refine ⟨ensures_scratch h.left fun _ => trivial, ensures_scratch h.right fun _ => trivial,
    fun l l' hl hl' hfoot => ?_⟩
  refine alike_bind (alike_onLedger rfl (Memory.alike_claim hfoot hb)) ?_
  rintro _ ⟨m, g1⟩ ⟨m', g1'⟩ ⟨-, hm⟩ hrun hrun'
  obtain ⟨hclaim, hg⟩ := onLedger_ok hrun
  obtain ⟨hclaim', hg'⟩ := onLedger_ok hrun'
  obtain rfl : g1 = g := hg
  obtain rfl : g1' = g1 := hg'
  exact alike_release_after h hl hl' (Memory.claim_ok hl.coherent hclaim)
    (Memory.claim_ok hl'.coherent hclaim') hm hb

/-- What is done with the documents that a search found. -/
theorem agrees_search {feed feed' : Feed} (hshard : feed'.shard = feed.shard) {q : Query}
    {body body' : DocSet → Pass α} (h : ∀ docs, Agrees strict (body docs) (body' docs) g) :
    Agrees strict
      (onLedger (q.search feed.shard) >>= fun docs =>
        tryFinally (body docs) (onLedger (Memory.release feed.setBytes)))
      (onLedger (q.search feed'.shard) >>= fun docs =>
        tryFinally (body' docs) (onLedger (Memory.release feed'.setBytes))) g := by
  obtain ⟨shard, chunk⟩ := feed
  obtain ⟨_, chunk'⟩ := feed'
  obtain rfl : _ = shard := hshard
  refine ⟨ensures_search (fun docs => (h docs).left) fun _ => trivial,
    ensures_search (fun docs => (h docs).right) fun _ => trivial, fun l l' hl hl' hfoot => ?_⟩
  refine alike_bind (alike_onLedger rfl
    (q.search_repeats _ l l' hl.coherent hl'.coherent hfoot)) ?_
  rintro docs ⟨m, g1⟩ ⟨m', g1'⟩ ⟨-, hm⟩ hrun hrun'
  obtain ⟨hsearch, hg⟩ := onLedger_ok hrun
  obtain ⟨hsearch', hg'⟩ := onLedger_ok hrun'
  obtain rfl : g1 = g := hg
  obtain rfl : g1' = g1 := hg'
  exact alike_release_after (h docs) hl hl' ((q.search_secures _ l hl.coherent).ok_of hsearch).2
    ((q.search_secures _ l' hl'.coherent).ok_of hsearch').2 hm fun _ => rfl

theorem agrees_replace (x : Nat) : Agrees strict (replace x) (replace x) g := by
  refine ⟨ensures_replace trivial, ensures_replace trivial, fun l l' hl hl' hfoot => ?_⟩
  show Alike strict _
    ((onLedger (Memory.release g.bytes) >>= fun _ => setGrouping (.constant x g.len)) ⟨l, g⟩)
    ((onLedger (Memory.release g.bytes) >>= fun _ => setGrouping (.constant x g.len)) ⟨l', g⟩)
  refine alike_bind (alike_onLedger rfl (Memory.alike_release hfoot hl.coherent hl'.coherent
    hl.bytes_le hl'.bytes_le fun _ => rfl)) ?_
  rintro _ w w' ⟨-, hfoot⟩ - -
  exact alike_modify ⟨rfl, hfoot⟩

theorem agrees_replace_bind {x : Nat} {f f' : Unit → Pass α}
    (h : Agrees strict (f ()) (f' ()) (.constant x g.len)) :
    Agrees strict (replace x >>= f) (replace x >>= f') g := by
  have hx : Ensures (replace x) g (fun _ g' => g' = .constant x g.len) fun _ _ => True :=
    ensures_replace rfl
  refine agrees_bind hx (agrees_replace x) ?_
  rintro _ _ rfl
  exact h

theorem agrees_makeRoom_bind {m : Nat} {f f' : Unit → Pass α} (hlen : g.len ≤ maxId)
    (h : Agrees strict (f ()) (f' ()) (g.roomFor m)) :
    Agrees strict (makeRoom m >>= f) (makeRoom m >>= f') g := by
  have hx : Ensures (makeRoom m) g (fun _ g' => g' = g.roomFor m) fun _ _ => True :=
    ensures_makeRoom hlen rfl fun _ => trivial
  have hself : Agrees strict (makeRoom m) (makeRoom m) g := by
    refine ⟨hx.mono fun _ _ _ => trivial, hx.mono fun _ _ _ => trivial, fun l l' hl hl' hfoot => ?_⟩
    show Alike strict _
      ((if g.fits m then setGrouping (g.announce m)
        else orBroken (word? (g.widenedBytes m)) >>= fun bytes =>
          onLedger (Memory.claim bytes) >>= fun _ => orBroken (g.widen? m) >>= fun wider =>
            onLedger (Memory.release g.bytes) >>= fun _ => setGrouping wider) ⟨l, g⟩)
      ((if g.fits m then setGrouping (g.announce m)
        else orBroken (word? (g.widenedBytes m)) >>= fun bytes =>
          onLedger (Memory.claim bytes) >>= fun _ => orBroken (g.widen? m) >>= fun wider =>
            onLedger (Memory.release g.bytes) >>= fun _ => setGrouping wider) ⟨l', g⟩)
    by_cases hf : g.fits m
    · rw [if_pos hf]
      exact alike_modify ⟨rfl, hfoot⟩
    · rw [if_neg hf]
      cases word? (g.widenedBytes m) with
      | none => exact .broken
      | some bytes =>
        simp only [orBroken, pure_bind]
        refine alike_bind (alike_onLedger rfl (Memory.alike_claim hfoot fun _ => rfl)) ?_
        rintro _ w w' ⟨hg, hw⟩ hrun hrun'
        -- both arrays are held between the claim and the release
        obtain ⟨hcoh, hused⟩ := Memory.claim_ok hl.coherent (onLedger_ok hrun).1
        obtain ⟨hcoh', hused'⟩ := Memory.claim_ok hl'.coherent (onLedger_ok hrun').1
        have hbytes : g.bytes ≤ l.used := hl.bytes_le
        have hbytes' : g.bytes ≤ l'.used := hl'.bytes_le
        simp only at hused hused'
        cases g.widen? m with
        | none => exact .broken
        | some wider =>
          simp only [pure_bind]
          refine alike_bind (alike_onLedger hg (Memory.alike_release hw hcoh hcoh' (by omega)
            (by omega) fun _ => rfl)) ?_
          rintro _ v v' ⟨-, hv⟩ - -
          exact alike_modify ⟨rfl, hv⟩
  refine agrees_bind hx hself ?_
  rintro _ _ rfl
  exact h

/-! ### Changes -/

/-- A pass that runs on `g` as another one does. -/
theorem Agrees.congr {x y y' : Pass α} (h : Agrees strict x y g)
    (hy : ∀ l, y' ⟨l, g⟩ = y ⟨l, g⟩) : Agrees strict x y' g := by
  refine ⟨h.left, fun l hl => ?_, fun l l' hl hl' hfoot => ?_⟩
  · have hright := h.right l hl
    unfold Ends at hright ⊢
    rw [hy]
    exact hright
  · rw [hy]
    exact h.alike l l' hl hl' hfoot

/-- Changes of `g` that come to the same. -/
theorem agrees_change_bind {h h' : Grouping → Option Grouping} {f f' : Unit → Pass α}
    (heq : h' g = h g)
    (hf : ∀ g', h g = some g' → g'.bytes = g.bytes ∧ Agrees strict (f ()) (f' ()) g') :
    Agrees strict (change h >>= f) (change h' >>= f') g := by
  have hx : Ensures (change h) g (fun _ g' => h g = some g') fun _ _ => True :=
    ensures_change fun g' hg' => ⟨(hf g' hg').1, hg'⟩
  have hself : Agrees strict (change h) (change h) g := by
    refine ⟨hx.mono fun _ _ _ => trivial, hx.mono fun _ _ _ => trivial, fun l l' _ _ hfoot => ?_⟩
    show Alike strict _ ((orBroken (h g) >>= setGrouping) ⟨l, g⟩)
      ((orBroken (h g) >>= setGrouping) ⟨l', g⟩)
    cases h g with
    | none => exact .broken
    | some g1 => exact .ok ⟨rfl, hfoot⟩
  refine (agrees_bind hx hself fun _ g' hg' => (hf g' hg').2).congr fun l => ?_
  have hrun : change h' ⟨l, g⟩ = change h ⟨l, g⟩ := by
    show (orBroken (h' g) >>= setGrouping) ⟨l, g⟩ = (orBroken (h g) >>= setGrouping) ⟨l, g⟩
    rw [heq]
  show EStateM.bind (change h') f' ⟨l, g⟩ = EStateM.bind (change h) f' ⟨l, g⟩
  unfold EStateM.bind
  rw [hrun]

theorem agrees_recount : Agrees strict recount recount g :=
  agrees_change_bind rfl fun _ hg' =>
    ⟨Grouping.bytes_recount? hg', agrees_grouping (agrees_pure _)⟩

/-- Rewrites that come to the same, and the recount after them. -/
theorem agrees_rewrite {h h' : Grouping → Option Grouping} (heq : h' g = h g)
    (hbytes : ∀ g', h g = some g' → g'.bytes = g.bytes) :
    Agrees strict (change h >>= fun _ => recount) (change h' >>= fun _ => recount) g :=
  agrees_change_bind heq fun g' hg' => ⟨hbytes g' hg', agrees_recount⟩

theorem agrees_unlessFilteredOut {body body' : Nat → Pass Nat}
    (h : Agrees strict (body g.numGroups) (body' g.numGroups) g) :
    Agrees strict (unlessFilteredOut body) (unlessFilteredOut body') g := by
  refine agrees_grouping ?_
  by_cases hn : g.numGroups ≤ 1
  · rw [if_pos hn, if_pos hn]
    exact agrees_pure _
  · rw [if_neg hn, if_neg hn]
    exact h

end Cohort.Pass
