import Mathlib
import Cohort.Proofs.Regroup.Spares
import Cohort.Proofs.Session.Progress

/-!
# Group 0 — what is filtered out stays out

Once all documents are in group 0, a regroup does nothing at all. Before that it takes no document
out of group 0, unless that is the group it targets. All other requests leave every document in its
group, so only a reset, or a regroup that targets group 0, brings documents back.
-/

namespace Cohort

/-- The group that a regroup splits or deals out, if it is about a single one. -/
def Command.target? : Command → Option Nat
  | .intOr _ _ split | .stringOr _ _ split | .regex _ _ split | .random _ _ _ _ split
  | .randomMetric _ _ _ split => some split.target
  | .query rule => some rule.split.target
  | .randomMulti _ _ _ deal | .randomMetricMulti _ _ deal => some deal.target
  | _ => none

/-- The request does not put the documents back to where they started. -/
def Request.Keeps (r : Request) : Prop := r ≠ .command .reset

/-- The request does not target group 0 either. -/
def Request.Spares (r : Request) : Prop := r.Keeps ∧ ∀ c, r = .command c → c.target? ≠ some 0

/-! ### Calls -/

namespace Call

open Session

variable {shard : Shard} {config : Config} {hand : Nat} {s : Session} {c : Command}

/-- The call reports one group or is refused, and changes nothing but the count of group 0, which
it forgets. -/
def Idles (x : Call Outcome) (s : Session) : Prop :=
  Ends x s (fun o s' => o = .groups 1 ∧ s' = { s with zeroCount := none })
    (OnFailure (fun _ s' => s' = { s with zeroCount := none }) False)

theorem idles_groups {body : Session → Feed → Pass Nat} (hs : s.Sound shard config 1 hand)
    (h : ∀ t : Session, (body t ⟨shard, config.bufferSize⟩).Idles s.grouping) :
    Idles (Outcome.groups <$> regroup body) s := by
  -- the set of buffers that the regroup borrows is given back
  have hback : ({ s with buffers := bufferPool config 1, zeroCount := none } : Session) =
      { s with zeroCount := none } := by
    rw [← hs.buffers_eq]
  refine ends_map (ends_regroup hs ?_)
  have hx := h { s with buffers := bufferPool config 0 } s.ledger
  unfold Ends at hx ⊢
  unfold onGrouping
  split at hx <;> rename_i hrun <;> simp only [hrun]
  · obtain ⟨rfl, rfl⟩ := hx
    exact ⟨rfl, hback⟩
  · rename_i e w
    cases e with
    | refused e =>
      obtain rfl : w = ⟨s.ledger, s.grouping⟩ := hx
      exact hback
    | broken => exact hx

theorem idles_regexBy (hs : s.Sound shard config 1 hand) (hn : s.grouping.numGroups = 1)
    (engine : Regex.Engine) (field pattern : String) (split : Split) :
    Idles (Outcome.groups <$> regexBy engine field pattern split) s := by
  have hone : ¬ 2 < s.grouping.numGroups := by omega
  refine idles_groups hs fun _ => Pass.idles_grouping_bind ?_
  rw [if_neg hone]
  exact Pass.idles_unlessFilteredOut hn

theorem idles_dealByField {g : Grouping} (hn : g.numGroups = 1) (feed : Feed) (hash : SaltedHash)
    (field : String) (isInt : Bool) (deal : Regroup.Deal) (unmatched : Option Nat) :
    (Regroup.dealByField feed hash field isInt deal unmatched).Idles g := by
  unfold Regroup.dealByField
  exact Pass.idles_unlessFilteredOut hn

theorem idles_randomMetricMulti (hs : s.Sound shard config 1 hand)
    (hn : s.grouping.numGroups = 1) (stat : Nat) (salt : String) (deal : Regroup.Deal) :
    Idles (Outcome.groups <$> randomMetricMulti stat salt deal) s :=
  idles_groups hs fun _ => Pass.idles_orRefused_bind fun _ _ => Pass.idles_unlessFilteredOut hn

/-- With all documents in group 0, there is nothing to regroup. -/
theorem idles_apply (hs : s.Sound shard config 1 hand) (hn : s.grouping.numGroups = 1)
    (hc : c.isRegroup = true) : Idles c.apply s := by
  cases c with
  | regex field pattern split => exact idles_regexBy hs hn .standard field pattern split
  | random field isInt salt p split =>
    exact idles_groups hs fun _ => idles_dealByField hn _ _ field isInt _ _
  | randomMulti field isInt salt deal =>
    exact idles_groups hs fun _ => idles_dealByField hn _ _ field isInt deal _
  | randomMetric stat salt p split => exact idles_randomMetricMulti hs hn stat salt _
  | randomMetricMulti stat salt deal => exact idles_randomMetricMulti hs hn stat salt deal
  | metric stat min max interval noGutters =>
    refine idles_groups hs fun _ => Pass.idles_orRefused_bind fun _ _ => ?_
    exact Pass.idles_orRefused_bind fun _ _ => Pass.idles_unlessFilteredOut hn
  | metric2d x y =>
    refine idles_groups hs fun _ => Pass.idles_orRefused_bind fun _ _ => ?_
    refine Pass.idles_orRefused_bind fun _ _ => Pass.idles_orRefused_bind fun _ _ => ?_
    exact Pass.idles_orRefused_bind fun _ _ => Pass.idles_unlessFilteredOut hn
  | metricFilter stat min max negate =>
    refine idles_groups hs fun _ => Pass.idles_orRefused_bind fun _ _ => ?_
    exact Pass.idles_unlessFilteredOut hn
  | remap sources destinations onlyRemapped =>
    refine idles_groups hs fun _ => Pass.idles_orRefused_bind fun _ _ => ?_
    exact Pass.idles_unlessFilteredOut hn
  | pushStat | popStat | groupStats | createDynamic | updateDynamic | conditionalUpdateDynamic
  | groupConditionalUpdateDynamic | totalDocFreq | reset => cases hc
  | _ => exact idles_groups hs fun _ => Pass.idles_unlessFilteredOut hn

/-- The call, where it goes through, takes no document out of group 0. -/
def Spares (x : Call Outcome) (s : Session) : Prop :=
  Ends x s (fun _ s' => s.grouping.Spares s'.grouping) fun _ _ => True

theorem spares_groups {body : Session → Feed → Pass Nat} (hs : s.Sound shard config 1 hand)
    (h : ∀ t : Session, (body t ⟨shard, config.bufferSize⟩).Spares s.grouping) :
    Spares (Outcome.groups <$> regroup body) s := by
  have hx := Pass.ensures_iff.mp (h { s with buffers := bufferPool config 0 })
  refine ends_map (ends_regroup hs ((ends_onGrouping (hs.withFree 0) hx).mono ?_ ?_))
  · exact fun _ _ ht => ht.1
  · exact fun _ _ _ => trivial

theorem spares_regexBy {split : Split} (hs : s.Sound shard config 1 hand)
    (hg : s.grouping.Counted shard.numDocs) (ha : shard.Ascending) (hchunk : 0 < config.bufferSize)
    (h0 : split.target ≠ 0) (engine : Regex.Engine) (field pattern : String) :
    Spares (Outcome.groups <$> regexBy engine field pattern split) s := by
  refine spares_groups hs fun _ => Pass.ensures_bind (Pass.ensures_grouping ?_)
  by_cases hn : 2 < s.grouping.numGroups
  · rw [if_pos hn]
    exact Pass.ensures_bind (Pass.ensures_refusal trivial)
  · rw [if_neg hn]
    cases engine.enclosed? pattern with
    | none => exact Pass.spares_unlessFilteredOut fun _ => Pass.ensures_refusal trivial
    | some re =>
      exact (Regroup.splits_byValue hg (ha.stringPostings field) hchunk (engine.isMatch re)
        split).spares h0

theorem spares_dealByTerms {deal : Regroup.Deal} {unmatched : Option Nat}
    (hs : s.Sound shard config 1 hand) (hg : s.grouping.Counted shard.numDocs)
    (ha : shard.Ascending) (hchunk : 0 < config.bufferSize) (h0 : deal.target ≠ 0)
    (hu : ∀ x ∈ unmatched, x ∈ deal.results) (hash : SaltedHash) (field : String) (isInt : Bool) :
    Spares (Outcome.groups <$> dealByTerms hash field isInt deal unmatched) s :=
  spares_groups hs fun _ => Regroup.spares_of_destination
    (Regroup.rearranges_dealByField hg ha hchunk field isInt hu) h0

theorem spares_dealByStat {deal : Regroup.Deal} (hs : s.Sound shard config 1 hand)
    (hg : s.grouping.Counted shard.numDocs) (h0 : deal.target ≠ 0) (hash : SaltedHash)
    (stat : Nat) : Spares (Outcome.groups <$> dealByStat hash stat deal) s :=
  spares_groups hs fun _ => Pass.spares_orRefused_bind fun values _ =>
    Regroup.spares_of_destination (Regroup.rearranges_dealByValues hg values none) h0

theorem spares_apply (hs : s.Sound shard config 1 hand) (hg : s.grouping.Counted shard.numDocs)
    (ha : shard.Ascending) (hchunk : 0 < config.bufferSize) (hc : c.isRegroup = true)
    (h0 : c.target? ≠ some 0) : Spares c.apply s := by
  have htarget : ∀ x, c.target? = some x → x ≠ 0 := by
    rintro x hx rfl
    exact h0 hx
  cases c with
  | regroupMulti rules errorOnCollisions =>
    exact spares_groups hs fun _ => Regroup.spares_of_applied
      (Regroup.ensures_byMultiRules hs.wellFormed rules errorOnCollisions) ha hchunk
  | regroupRules rules =>
    exact spares_groups hs fun _ => Regroup.spares_of_applied
      (Regroup.ensures_byRules hs.wellFormed rules) ha hchunk
  | intOr field terms split =>
    exact spares_groups hs fun _ =>
      (Regroup.splits_byAny hg (ha.intPostings field) hchunk terms split).spares (htarget _ rfl)
  | stringOr field terms split =>
    exact spares_groups hs fun _ =>
      (Regroup.splits_byAny hg (ha.stringPostings field) hchunk terms split).spares (htarget _ rfl)
  | regex field pattern split =>
    exact spares_regexBy hs hg ha hchunk (htarget _ rfl) .standard field pattern
  | query rule =>
    exact spares_groups hs fun _ => (Regroup.splits_byQuery hg ha rule).spares (htarget _ rfl)
  | random field isInt salt p split =>
    have h0 : (Regroup.Deal.twoWay split p).target ≠ 0 := htarget split.target rfl
    exact spares_dealByTerms hs hg ha hchunk h0 (Regroup.Deal.negative_mem_twoWay split p) _ field
      isInt
  | randomMulti field isInt salt deal =>
    refine spares_dealByTerms hs hg ha hchunk (htarget _ rfl) ?_ _ field isInt
    exact nofun
  | randomMetric stat salt p split =>
    have h0 : (Regroup.Deal.twoWay split p).target ≠ 0 := htarget split.target rfl
    exact spares_dealByStat hs hg h0 _ stat
  | randomMetricMulti stat salt deal => exact spares_dealByStat hs hg (htarget _ rfl) _ stat
  | metric stat min max interval noGutters =>
    exact spares_groups hs fun _ => Pass.spares_orRefused_bind fun values _ =>
      Pass.spares_orRefused_bind fun buckets _ => Regroup.spares_byBuckets hg.len_le values buckets
  | metric2d x y =>
    exact spares_groups hs fun _ => Pass.spares_orRefused_bind fun xs _ =>
      Pass.spares_orRefused_bind fun ys _ => Pass.spares_orRefused_bind fun xAxis _ =>
        Pass.spares_orRefused_bind fun yAxis _ =>
          Regroup.spares_byGrid hg.len_le xs ys ⟨xAxis, yAxis⟩
  | metricFilter stat min max negate =>
    exact spares_groups hs fun _ => Pass.spares_orRefused_bind fun values _ =>
      Regroup.spares_byRange hg.len_le values min max negate
  | remap sources destinations onlyRemapped =>
    exact spares_groups hs fun _ =>
      Regroup.spares_byRemap hs.wellFormed sources destinations onlyRemapped
  | _ => cases hc

/-! ### Requests -/

variable {r : Request}

/-- Requests other than regroups and resets move no document. -/
theorem stays_request (hs : s.Sound shard config 1 hand) (ha : shard.Ascending)
    (hchunk : 0 < config.bufferSize) (hr : r.Keeps)
    (hother : ∀ c, r = .command c → c.isRegroup = false) :
    Ends r.apply s (fun _ s' => s'.grouping = s.grouping)
      (OnRefusal fun _ s' => s'.grouping = s.grouping) := by
  have hstays : Preserves r.apply s shard.numDocs False True := by
    cases r with
    | command c =>
      have hreset : c ≠ .reset := fun h => hr (congrArg Request.command h)
      exact preserves_map
        (preserves_apply hs ha hchunk (hother c rfl) hreset False.elim (absurd trivial))
    | _ =>
      refine preserves_other hs ?_ False.elim (absurd trivial)
      exact nofun
  rw [← onFailure_true]
  exact Ends.mono hstays (fun _ _ h => h.1) fun _ _ h => h

theorem keeps_request (hs : s.Sound shard config 1 hand) (ha : shard.Ascending)
    (hchunk : 0 < config.bufferSize) (hn : s.grouping.numGroups = 1) (hr : r.Keeps) :
    Ends r.apply s (fun _ s' => s'.grouping = s.grouping)
      (OnRefusal fun _ s' => s'.grouping = s.grouping) := by
  by_cases hregroup : ∃ c, r = .command c ∧ c.isRegroup = true
  · obtain ⟨c, rfl, hc⟩ := hregroup
    refine ends_map (Ends.mono (idles_apply hs hn hc) ?_ ?_)
    · rintro o s' ⟨-, rfl⟩
      rfl
    · rintro (e | _) s' hs'
      · obtain rfl := hs'
        rfl
      · trivial
  · refine stays_request hs ha hchunk hr fun c hc => ?_
    simpa using fun h => hregroup ⟨c, hc, h⟩

theorem spares_request (hs : s.Sound shard config 1 hand) (hg : s.grouping.Counted shard.numDocs)
    (ha : shard.Ascending) (hchunk : 0 < config.bufferSize) (hr : r.Spares) :
    Ends r.apply s (fun _ s' => s.grouping.Spares s'.grouping)
      (OnRefusal fun _ s' => s.grouping.Spares s'.grouping) := by
  by_cases hregroup : ∃ c, r = .command c ∧ c.isRegroup = true
  · obtain ⟨c, rfl, hc⟩ := hregroup
    have hspares := spares_apply hs hg ha hchunk hc (hr.2 c rfl)
    refine ends_map ((Ends.and hspares (serves_apply hs c)).mono (fun _ _ h => h.1) ?_)
    rintro (e | _) s' ⟨-, hs'⟩
    · exact Grouping.spares_of_get? hs'.2.get?_eq
    · trivial
  · refine (stays_request hs ha hchunk hr.1 fun c hc => ?_).mono ?_ ?_
    · simpa using fun h => hregroup ⟨c, hc, h⟩
    · intro _ s' hs'
      exact hs' ▸ .refl _
    · rintro (e | _) s' hs'
      · have hs' : s'.grouping = s.grouping := hs'
        exact hs' ▸ .refl _
      · trivial

end Call

namespace Live

variable {shard : Shard} {config : Config} {x y : Live} {P : Request → Prop}

/-! ### Runs -/

/-- A step that asks for nothing, or for what satisfies `P`. -/
inductive StepOf (P : Request → Prop) : Live → Live → Prop
  | answered {x : Live} {r : Request} {a : Answer} {s' : Session} (hr : P r)
      (h : r.apply x.session = .ok a s') : StepOf P x ⟨s', x.hand⟩
  | refused {x : Live} {r : Request} {e : Error} {s' : Session} (hr : P r)
      (h : r.apply x.session = .error (.refused e) s') : StepOf P x ⟨s', x.hand⟩
  /-- Bytes that are moved by hand or by others. -/
  | aside {x y : Live} (h : Step x y)
      (hy : y.session = { x.session with ledger := y.session.ledger }) : StepOf P x y

theorem StepOf.step (h : StepOf P x y) : Step x y := by
  cases h with
  | answered _ h => exact .answered h
  | refused _ h => exact .refused h
  | aside h => exact h

/-- A run from `x` to `y` whose requests all satisfy `P`. -/
def Onward (P : Request → Prop) : Live → Live → Prop := Relation.ReflTransGen (StepOf P)

theorem Reachable.onward (h : Reachable shard config x) (hrun : Onward P x y) :
    Reachable shard config y := by
  induction hrun with
  | refl => exact h
  | tail _ hstep ih => exact .step ih hstep.step

theorem StepOf.grouping_eq (h : StepOf Request.Keeps x y) (hx : Reachable shard config x)
    (hb : shard.Built) (hn : x.session.grouping.numGroups = 1) :
    y.session.grouping = x.session.grouping := by
  have hcall : ∀ r : Request, r.Keeps → Ends r.apply x.session
      (fun _ s' => s'.grouping = x.session.grouping)
      (OnRefusal fun _ s' => s'.grouping = x.session.grouping) :=
    fun _ hr => Call.keeps_request hx.sound hb.ascending hx.bufferSize_pos hn hr
  cases h with
  | answered hr h => exact (hcall _ hr).ok_of h
  | refused hr h => exact (hcall _ hr).err_of h
  | aside _ hy =>
    rw [hy]

theorem StepOf.spares (h : StepOf Request.Spares x y) (hx : Reachable shard config x)
    (hb : shard.Built) : x.session.grouping.Spares y.session.grouping := by
  have hcall : ∀ r : Request, r.Spares → Ends r.apply x.session
      (fun _ s' => x.session.grouping.Spares s'.grouping)
      (OnRefusal fun _ s' => x.session.grouping.Spares s'.grouping) :=
    fun _ hr => Call.spares_request hx.sound (hx.counted hb) hb.ascending hx.bufferSize_pos hr
  cases h with
  | answered hr h => exact (hcall _ hr).ok_of h
  | refused hr h => exact (hcall _ hr).err_of h
  | aside _ hy =>
    rw [hy]
    exact .refl _

/-- With all documents in group 0, no run moves any but by a reset. -/
theorem Onward.grouping_eq (hrun : Onward Request.Keeps x y) (h : Reachable shard config x)
    (hb : shard.Built) (hn : x.session.grouping.numGroups = 1) :
    y.session.grouping = x.session.grouping := by
  induction hrun with
  | refl => rfl
  | tail hrun hstep ih => exact (hstep.grouping_eq (h.onward hrun) hb (ih ▸ hn)).trans ih

/-- No run takes a document out of group 0 but by a reset or a regroup that targets it. -/
theorem Onward.spares (hrun : Onward Request.Spares x y) (h : Reachable shard config x)
    (hb : shard.Built) : x.session.grouping.Spares y.session.grouping := by
  induction hrun with
  | refl => exact .refl _
  | tail hrun hstep ih => exact ih.trans (hstep.spares (h.onward hrun) hb)

/-- Group 0 holds what it has. Where there is no other group, a regroup reports one group or is
refused, changes nothing but the count of group 0, which it forgets, and until a reset all documents
stay where they are. In any other session, a regroup that does not target group 0 takes no document
out of it, and neither does a run of requests that do not. -/
theorem Reachable.group_zero_sticky (h : Reachable shard config x) (hb : shard.Built) :
    (x.session.numGroups = 1 →
      (∀ c : Command, c.isRegroup = true →
        c.apply x.session = .ok (.groups 1) { x.session with zeroCount := none } ∨
        ∃ e, c.apply x.session = .error (.refused e) { x.session with zeroCount := none }) ∧
      ∀ y, Onward Request.Keeps x y → y.session.grouping = x.session.grouping ∧
        ∀ d < shard.numDocs, y.session.grouping.get? d = some 0) ∧
    (∀ (c : Command) (s' : Session), c.isRegroup = true → c.target? ≠ some 0 →
      ((∃ o, c.apply x.session = .ok o s') ∨ ∃ e, c.apply x.session = .error (.refused e) s') →
      ∀ d, x.session.grouping.get? d = some 0 → s'.grouping.get? d = some 0) ∧
    ∀ y, Onward Request.Spares x y →
      ∀ d, x.session.grouping.get? d = some 0 → y.session.grouping.get? d = some 0 := by
  have hs := h.sound
  have hg := hs.wellFormed
  refine ⟨fun hn => ⟨fun c hc => ?_, fun y hrun => ?_⟩, fun c s' hc h0 hcall => ?_, ?_⟩
  · have hidle := Call.idles_apply hs hn hc
    unfold Call.Idles Ends at hidle
    cases hx : c.apply x.session with
    | ok o s' =>
      rw [hx] at hidle
      obtain ⟨rfl, rfl⟩ := hidle
      exact .inl rfl
    | error e s' =>
      rw [hx] at hidle
      cases e with
      | refused e =>
        obtain rfl := hidle
        exact .inr ⟨e, rfl⟩
      | broken => exact hidle.elim
  · have hsame := hrun.grouping_eq h hb hn
    refine ⟨hsame, fun d hd => ?_⟩
    obtain ⟨group, hgroup⟩ := Grouping.get?_of_lt_len (hg.len_eq.symm ▸ hd)
    have hlt : group < x.session.numGroups := hg.lt_numGroups d group hgroup
    have hzero : group = 0 := by omega
    rw [hsame, hgroup, hzero]
  · rcases hcall with ⟨o, ho⟩ | ⟨e, he⟩
    · exact (Call.spares_apply hs (h.counted hb) hb.ascending h.bufferSize_pos hc h0).ok_of ho
    · have hkept := ((Session.serves_apply hs c).err_of he).2
      exact Grouping.spares_of_get? hkept.get?_eq
  · exact fun y hrun => hrun.spares h hb

/-- `divided` with every document filtered out. -/
def emptied : Session :=
  { opened 1000 with
    ledger := ⟨⟨1000, 32, 150⟩, none⟩
    grouping := .constant 0 3 }

theorem filterOut_divided : (Request.command (.regroupMulti [] true)).apply divided =
    .ok (.outcome (.groups 1)) emptied := by
  cbv

theorem reachable_emptied : Reachable ages narrow ⟨emptied, 0⟩ :=
  .step reachable_divided (.answered filterOut_divided)

/-- In `divided` the first document is filtered out and stays so when the rest follow; after that
not even group 0 can be split. -/
theorem Reachable.group_zero_sticky_emptied :
    (divided.grouping.get? 0 = some 0 ∧ emptied.grouping.get? 0 = some 0) ∧
    emptied.numGroups = 1 ∧
    ((Command.intOr "age" [20] ⟨0, 5, 7⟩).apply emptied = .ok (.groups 1) emptied ∨
      ∃ e, (Command.intOr "age" [20] ⟨0, 5, 7⟩).apply emptied = .error (.refused e) emptied) ∧
    ∀ d < 3, emptied.grouping.get? d = some 0 := by
  have hspares : (Request.command (.regroupMulti [] true)).Spares := by
    refine ⟨nofun, fun c hc => ?_⟩
    cases hc
    exact nofun
  have hrun : Onward Request.Spares ⟨divided, 0⟩ ⟨emptied, 0⟩ :=
    .single (.answered hspares filterOut_divided)
  have hdivided := Reachable.group_zero_sticky reachable_divided built_ages
  have hemptied := (Reachable.group_zero_sticky reachable_emptied built_ages).1 rfl
  refine ⟨⟨rfl, hdivided.2.2 _ hrun 0 rfl⟩, rfl, hemptied.1 _ rfl, ?_⟩
  exact (hemptied.2 _ .refl).2

end Live

end Cohort
