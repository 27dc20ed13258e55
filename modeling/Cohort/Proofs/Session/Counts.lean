import Cohort.Proofs.Grouping.Counts
import Cohort.Proofs.Session.Guarantees

/-!
# The count of group 0 — kept between calls, and never out of date

A session keeps the number of documents in group 0 once it was asked for. `Session.Current`: if it
keeps one, it is the number of documents there now. Regroups and resets forget it, however they end,
and no other call moves a document. No call changes the limit of the ledger, either.
-/

namespace Cohort

/-! ### Charges of a session -/

section Charges

open Memory.Charge

theorem StatStack.keepsLimit_push (s : StatStack) (name : String) (values : ValueTable) :
    KeepsLimit (s.push name values) :=
  keepsLimit_bind (keepsLimit_orRefused _) fun _ =>
    keepsLimit_bind (keepsLimit_claim _) fun _ => keepsLimit_pure _

theorem StatStack.keepsLimit_pop (s : StatStack) : KeepsLimit s.pop := by
  unfold pop
  cases s.stats.back? with
  | none => exact keepsLimit_throw _
  | some stat => exact keepsLimit_bind (keepsLimit_release _) fun _ => keepsLimit_pure _

theorem Memory.BufferPool.keepsLimit_take (p : BufferPool) : KeepsLimit p.take := by
  unfold take
  split
  · exact keepsLimit_pure _
  · exact keepsLimit_bind (keepsLimit_claim _) fun _ => keepsLimit_pure _

theorem Memory.BufferPool.keepsLimit_giveBack (p : BufferPool) : KeepsLimit p.giveBack := by
  unfold giveBack
  split
  · exact keepsLimit_pure _
  · split
    · exact keepsLimit_throw _
    · exact keepsLimit_bind (keepsLimit_release _) fun _ => keepsLimit_pure _

end Charges

namespace Session

/-- The number of documents in group 0 that is kept, if one is, is what it is now. -/
def Current (s : Session) : Prop := ∀ n, s.zeroCount = some n → n = s.grouping.countGroup 0

/-- No document has moved, and the count is what it was. -/
structure Steady (s s' : Session) : Prop where
  limit_eq : s'.ledger.own.limit = s.ledger.own.limit
  grouping_eq : s'.grouping = s.grouping
  zeroCount_eq : s'.zeroCount = s.zeroCount

/-- The count is right if it was before. -/
structure Heeds (s s' : Session) : Prop where
  limit_eq : s'.ledger.own.limit = s.ledger.own.limit
  current : s.Current → s'.Current

theorem Steady.refl (s : Session) : s.Steady s := ⟨rfl, rfl, rfl⟩

theorem Steady.trans {s t u : Session} (h1 : s.Steady t) (h2 : t.Steady u) : s.Steady u :=
  ⟨h2.limit_eq.trans h1.limit_eq, h2.grouping_eq.trans h1.grouping_eq,
    h2.zeroCount_eq.trans h1.zeroCount_eq⟩

theorem Steady.heeds {s s' : Session} (h : s.Steady s') : s.Heeds s' := by
  refine ⟨h.limit_eq, fun hs n hn => ?_⟩
  rw [h.grouping_eq]
  exact hs n (h.zeroCount_eq.symm.trans hn)

/-- With no count kept, none is out of date. -/
theorem heeds_forget {s s' : Session} (hlimit : s'.ledger.own.limit = s.ledger.own.limit)
    (hnone : s'.zeroCount = none) : s.Heeds s' := by
  refine ⟨hlimit, fun _ n hn => ?_⟩
  rw [hnone] at hn
  cases hn

end Session

/-! ### Calls that move no document -/

namespace Call

open Session

variable {α β : Type} {s : Session}

/-- However `x` ends, no document has moved and the count is kept. -/
def Steady (x : Call α) : Prop :=
  ∀ s : Session, Ends x s (fun _ s' => s.Steady s') fun _ s' => s.Steady s'

theorem steady_pure (a : α) : Steady (pure a) := fun s => ends_pure (.refl s)

theorem steady_modify {f : Session → Session} (h : ∀ s : Session, s.Steady (f s)) :
    Steady (modify f) :=
  fun s => ends_modify (h s)

theorem steady_orBroken (o : Option α) : Steady (orBroken o) :=
  fun s => ends_orBroken (fun _ _ => .refl s) fun _ => .refl s

theorem steady_orRefused (r : Except Error α) : Steady (orRefused r) :=
  fun s => ends_orRefused (fun _ _ => .refl s) fun _ _ => .refl s

theorem steady_bind {x : Call β} {f : β → Call α} (hx : Steady x) (hf : ∀ b, Steady (f b)) :
    Steady (x >>= f) := by
  intro s
  refine ends_bind ((hx s).mono (fun b t ht => ?_) fun _ _ he => he)
  exact (hf b t).mono (fun _ _ hu => ht.trans hu) fun _ _ hu => ht.trans hu

theorem steady_get_bind {f : Session → Call α} (hf : ∀ s, Steady (f s)) : Steady (get >>= f) :=
  steady_bind (fun s => ends_get (.refl s)) hf

theorem steady_map {x : Call β} {f : β → α} (hx : Steady x) : Steady (f <$> x) :=
  fun s => ends_map (hx s)

theorem steady_finally {x : Call α} {y : Call β} (hx : Steady x) (hy : Steady y) :
    Steady (tryFinally x y) := by
  intro s
  have hend : ∀ t, s.Steady t → Ends y t (fun _ u => s.Steady u) fun _ u => s.Steady u :=
    fun t ht => (hy t).mono (fun _ _ hu => ht.trans hu) fun _ _ hu => ht.trans hu
  exact ends_finally ((hx s).mono (fun _ t ht => hend t ht) fun _ t ht => hend t ht)

theorem steady_onLedger {x : Memory.Charge α} (hx : x.KeepsLimit) : Steady (onLedger x) :=
  fun s => ends_onLedger
    ((hx s.ledger).mono (fun _ _ hl => ⟨hl, rfl, rfl⟩) fun _ _ hl => ⟨hl, rfl, rfl⟩)

/-- Bytes that are held while something is worked out. -/
theorem steady_scratch (b : Nat) (o : Unit → Option α) :
    Steady (onGrouping (Pass.scratch b fun u => orBroken (o u))) := by
  intro s
  have hcharge : ∀ (x : Memory.Charge Unit) (w : Workspace), x.KeepsLimit →
      w.ledger.own.limit = s.ledger.own.limit → w.grouping = s.grouping →
        Ends (Pass.onLedger x) w
          (fun _ w' => w'.ledger.own.limit = s.ledger.own.limit ∧ w'.grouping = s.grouping)
          fun _ w' => w'.ledger.own.limit = s.ledger.own.limit ∧ w'.grouping = s.grouping :=
    fun x w hx hl hg => Pass.ends_onLedger
      ((hx w.ledger).mono (fun _ _ h => ⟨h.trans hl, hg⟩) fun _ _ h => ⟨h.trans hl, hg⟩)
  have hpass : Ends (Pass.scratch b fun u => orBroken (o u)) ⟨s.ledger, s.grouping⟩
      (fun _ w => w.ledger.own.limit = s.ledger.own.limit ∧ w.grouping = s.grouping)
      fun _ w => w.ledger.own.limit = s.ledger.own.limit ∧ w.grouping = s.grouping := by
    refine ends_bind ((hcharge _ _ (Memory.Charge.keepsLimit_claim b) rfl rfl).mono ?_
      fun _ _ he => he)
    rintro _ w ⟨hl, hg⟩
    have hrelease := hcharge _ w (Memory.Charge.keepsLimit_release b) hl hg
    exact ends_finally (ends_orBroken
      (fun _ _ => hrelease.mono (fun _ _ h => h) fun _ _ h => h) fun _ => hrelease)
  unfold Ends at hpass ⊢
  unfold onGrouping
  split at hpass <;> rename_i hrun <;> simp only [hrun] <;> exact ⟨hpass.1, hpass.2, rfl⟩

theorem steady_withBuffers {body : Feed → Call α} (h : ∀ feed, Steady (body feed)) :
    Steady (withBuffers body) := by
  refine steady_get_bind fun s => ?_
  refine steady_bind (steady_onLedger (Memory.BufferPool.keepsLimit_take _)) fun taken => ?_
  refine steady_bind (steady_modify fun _ => ⟨rfl, rfl, rfl⟩) fun _ => ?_
  refine steady_finally (h _) ?_
  refine steady_bind (steady_onLedger (Memory.BufferPool.keepsLimit_giveBack _)) fun kept => ?_
  exact steady_modify fun _ => ⟨rfl, rfl, rfl⟩

theorem steady_pushValues (name : String) (values : ValueTable) :
    Steady (pushValues name values) := by
  refine steady_get_bind fun s => ?_
  refine steady_bind (steady_onLedger (StatStack.keepsLimit_push _ _ _)) fun stats => ?_
  exact steady_bind (steady_modify fun _ => ⟨rfl, rfl, rfl⟩) fun _ => steady_pure _

theorem steady_updateMetric (name : String) {f : Feed → Counters → Call Counters}
    (h : ∀ feed c, Steady (f feed c)) : Steady (updateMetric name f) := by
  refine steady_get_bind fun s => steady_bind (steady_orRefused _) fun c => ?_
  refine steady_withBuffers fun feed => steady_bind (h feed c) fun c' => ?_
  exact steady_modify fun _ => ⟨rfl, rfl, rfl⟩

/-- Commands that are neither regroups nor resets. -/
theorem steady_apply {c : Command} (hregroup : c.isRegroup = false) (hreset : c ≠ .reset) :
    Steady c.apply := by
  cases c with
  | pushStat name =>
    exact steady_map (steady_get_bind fun _ => steady_bind (steady_orRefused _) fun values =>
      steady_pushValues name values)
  | popStat =>
    refine steady_map (steady_get_bind fun s => ?_)
    refine steady_bind (steady_onLedger (StatStack.keepsLimit_pop _)) fun stats => ?_
    exact steady_bind (steady_modify fun _ => ⟨rfl, rfl, rfl⟩) fun _ => steady_pure _
  | groupStats stat =>
    refine steady_map (steady_bind (steady_get_bind fun _ => steady_orRefused _) fun values => ?_)
    exact steady_withBuffers fun _ => steady_get_bind fun _ => steady_orBroken _
  | createDynamic name =>
    refine steady_bind (steady_get_bind fun s => ?_) fun _ => steady_pure _
    refine steady_bind (steady_orRefused _) fun _ => ?_
    refine steady_bind (steady_onLedger (Memory.Charge.keepsLimit_claim _)) fun _ => ?_
    exact steady_modify fun _ => ⟨rfl, rfl, rfl⟩
  | updateDynamic name deltas =>
    exact steady_bind (steady_updateMetric name fun _ _ =>
      steady_get_bind fun _ => steady_orBroken _) fun _ => steady_pure _
  | conditionalUpdateDynamic name conditions deltas =>
    exact steady_bind (steady_updateMetric name fun _ _ =>
      steady_bind (steady_orRefused _) fun _ => steady_orBroken _) fun _ => steady_pure _
  | groupConditionalUpdateDynamic name groups conditions deltas =>
    exact steady_bind (steady_updateMetric name fun _ _ =>
      steady_bind (steady_orRefused _) fun _ => steady_get_bind fun _ => steady_scratch _ _)
        fun _ => steady_pure _
  | totalDocFreq intFields stringFields => exact steady_get_bind fun _ => steady_pure _
  | reset => exact absurd rfl hreset
  | _ => cases hregroup

/-! ### Calls that may move documents -/

/-- Answered or refused, `x` leaves a count that is right, or none. -/
def Heeds (x : Call α) (s : Session) : Prop :=
  Ends x s (fun _ s' => s.Heeds s') (OnRefusal fun _ s' => s.Heeds s')

theorem Steady.heeds {x : Call α} (h : x.Steady) (s : Session) : Heeds x s := by
  refine (h s).mono (fun _ _ ht => ht.heeds) ?_
  rintro (e | _) t ht
  · exact ht.heeds
  · trivial

variable {shard : Shard} {config : Config} {hand : Nat}

/-- A pass over a grouping that is paid for keeps the limit. -/
theorem ends_onGrouping_limit {free : Nat} {x : Pass α} {ok : α → Grouping → Prop}
    {refused : Error → Grouping → Prop} (hs : s.Sound shard config free hand)
    (h : x.Ensures s.grouping ok refused) :
    Ends (onGrouping x) s (fun _ t => t.ledger.own.limit = s.ledger.own.limit)
      (OnRefusal fun e t => t.ledger.own.limit = s.ledger.own.limit ∧ refused e t.grouping) := by
  have hx := h s.ledger hs.paid
  unfold Ends at hx ⊢
  unfold onGrouping
  split at hx <;> rename_i hrun <;> simp only [hrun]
  · exact hx.1.limit_eq
  · rename_i e w
    cases e with
    | refused e => exact ⟨hx.1.limit_eq, hx.2⟩
    | broken => trivial

/-- A regroup forgets the count however it ends. -/
theorem heeds_regroup {body : Session → Feed → Pass Nat} {f : Nat → α}
    (hs : s.Sound shard config 1 hand)
    (h : ∀ t : Session, Pass.Regroups shard.numDocs (body t ⟨shard, config.bufferSize⟩)
      s.grouping) : Heeds (f <$> regroup body) s := by
  have hpass := ends_onGrouping_limit (hs.withFree 0) (h { s with buffers := bufferPool config 0 })
  refine ends_map (ends_regroup hs (hpass.mono (fun _ _ hl => heeds_forget hl rfl) ?_))
  rintro (e | _) t ht
  · exact heeds_forget ht.1 rfl
  · trivial

theorem heeds_reset (hs : s.Sound shard config 1 hand) : Heeds Command.reset.apply s := by
  have hreplace : (Pass.replace 1).Ensures s.grouping (fun _ _ => True) fun _ _ => False :=
    Pass.ensures_replace trivial
  refine ends_bind (ends_bind ((ends_onGrouping_limit hs hreplace).mono (fun _ t hl => ?_) ?_))
  · exact ends_modify (ends_bind (ends_get (ends_pure (heeds_forget hl rfl))))
  · rintro (e | _) t ht
    · exact ht.2.elim
    · trivial

theorem heeds_apply (hs : s.Sound shard config 1 hand) (c : Command) : Heeds c.apply s := by
  by_cases hc : c.isRegroup = true
  · obtain ⟨body, hbody, h⟩ := exists_regroup hs hc
    rw [hbody]
    exact heeds_regroup hs h
  · by_cases hreset : c = .reset
    · rw [hreset]
      exact heeds_reset hs
    · exact (steady_apply (Bool.eq_false_iff.mpr hc) hreset).heeds s

end Call

/-! ### Runs -/

namespace Session

/-- Asking for the number of documents in group 0 gives it, and keeps it. -/
theorem Current.zeroGroupDocs_eq {s : Session} (h : s.Current) :
    zeroGroupDocs s = .ok (s.grouping.countGroup 0)
      { s with zeroCount := some (s.grouping.countGroup 0) } := by
  obtain ⟨shard, config, ledger, buffers, grouping, stats, metrics, zeroCount⟩ := s
  cases zeroCount with
  | none => rfl
  | some n =>
    have hn : n = grouping.countGroup 0 := h n rfl
    subst hn
    rfl

open Call

variable {shard : Shard} {config : Config} {hand : Nat} {s : Session}

theorem heeds_request (hs : s.Sound shard config 1 hand) (r : Request) :
    Call.Heeds r.apply s := by
  cases r with
  | command c => exact ends_map (heeds_apply hs c)
  | pushValues name values => exact (steady_map (steady_pushValues name values)).heeds s
  | groupOf doc => exact (steady_map (steady_get_bind fun _ => steady_orBroken _)).heeds s
  | exportGroups entries =>
    exact (steady_map (steady_get_bind fun _ =>
      steady_bind (steady_orRefused _) fun _ => steady_pure _)).heeds s
  | zeroGroupDocs =>
    refine ends_map (ends_bind (ends_get ?_))
    cases s.zeroCount with
    | some n => exact ends_pure ⟨rfl, id⟩
    | none =>
      exact ends_bind (ends_modify (ends_pure ⟨rfl, fun _ _ hn => (Option.some.inj hn).symm⟩))
  | stat index => exact (steady_map (steady_get_bind fun _ => steady_orRefused _)).heeds s
  | metric name =>
    exact (steady_get_bind fun _ =>
      steady_bind (steady_orRefused _) fun _ => steady_pure _).heeds s

end Session

namespace Live

variable {shard : Shard} {config : Config} {x y : Live}

theorem Step.heeds (hx : x.session.Sound shard config 1 x.hand) (h : Step x y) :
    x.session.Heeds y.session := by
  cases h with
  | @answered r a s' h => exact (Session.heeds_request hx r).ok_of h
  | @refused r e s' h => exact (Session.heeds_request hx r).err_of h
  | claimed h => exact ⟨Memory.Ledger.limit_claim? h, id⟩
  | released _ h => exact ⟨Memory.Ledger.limit_release? h, id⟩
  | elsewhere => exact ⟨rfl, id⟩

/-- However a session was reached, the count that it keeps is right. -/
theorem Reachable.current (h : Reachable shard config x) : x.session.Current := by
  induction h with
  | start _ h =>
    intro n hn
    rw [(Session.start_ok h).2.2.2] at hn
    cases hn
  | step hx h ih => exact (h.heeds hx.sound).current ih

end Live

end Cohort
