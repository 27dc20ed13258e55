import Cohort.Proofs.DocSet.Members
import Cohort.Proofs.Grouping.Docwise
import Cohort.Proofs.Regroup.Numbering

/-!
# Partitions — what is recorded while the fields are swept

The run of a plan is a loop over single records, one document and one term at a time. `offers` are
the numbers that the records done so far offered to a document, and `Recorded` is the invariant of
the loop: a document was matched if it was offered any, and the smallest of them is stored.
-/

namespace Cohort.Regroup.Partition

variable {feed : Feed} {g g' : Grouping} {rules : List MultiRule} {errorOnCollisions : Bool}
  {p p' : Partition}

/-! ### Records -/

/-- The single records of a plan: a document with the numbers of a term that it holds. -/
def recordsOf (plan : List (List Nat × List (Nat × Nat))) : List (Nat × List (Nat × Nat)) :=
  plan.flatMap fun e => e.1.map (·, e.2)

/-- The numbers that some records offer to a document of `group`. -/
def offers (records : List (Nat × List (Nat × Nat))) (doc group : Nat) : List Nat :=
  records.filterMap fun e => if e.1 = doc then e.2.lookup group else none

theorem mem_offers {plan : List (List Nat × List (Nat × Nat))} {doc group k : Nat} :
    k ∈ offers (recordsOf plan) doc group ↔ Hit plan doc group k := by
  unfold offers recordsOf Hit
  rw [List.mem_filterMap]
  constructor
  · rintro ⟨r, hr, hk⟩
    obtain ⟨e, he, hr⟩ := List.mem_flatMap.mp hr
    obtain ⟨d, hd, rfl⟩ := List.mem_map.mp hr
    split_ifs at hk with hdoc
    subst hdoc
    exact ⟨e, he, hd, hk⟩
  · rintro ⟨e, he, hd, hk⟩
    exact ⟨(doc, e.2), List.mem_flatMap.mpr ⟨e, he, List.mem_map_of_mem hd⟩,
      (if_pos rfl).trans hk⟩

theorem offers_concat (done : List (Nat × List (Nat × Nat))) (r : Nat × List (Nat × Nat))
    (doc group : Nat) : offers (done ++ [r]) doc group =
      offers done doc group ++ (if r.1 = doc then r.2.lookup group else none).toList := by
  unfold offers
  rw [List.filterMap_append]
  refine congrArg _ ?_
  cases h : (if r.1 = doc then r.2.lookup group else none) <;> simp [h]

/-- A record offers the number of the document's group, if it has one. -/
theorem offers_concat_self {done : List (Nat × List (Nat × Nat))} {r : Nat × List (Nat × Nat)}
    {group number : Nat} (hl : r.2.lookup group = some number) :
    offers (done ++ [r]) r.1 group = offers done r.1 group ++ [number] := by
  rw [offers_concat, if_pos rfl, hl]
  rfl

theorem offers_concat_same {done : List (Nat × List (Nat × Nat))} {r : Nat × List (Nat × Nat)}
    {doc group : Nat} (h : r.1 = doc → r.2.lookup group = none) :
    offers (done ++ [r]) doc group = offers done doc group := by
  rw [offers_concat]
  split_ifs with hd
  · rw [h hd]
    exact List.append_nil _
  · exact List.append_nil _

/-- Records one term of one document. -/
def recordAt (g : Grouping) (rules : List MultiRule) (errorOnCollisions : Bool) (p : Partition)
    (r : Nat × List (Nat × Nat)) : Except Failure Partition :=
  match g.get? r.1 with
  | none => .error .broken
  | some group => p.record rules errorOnCollisions r.2 r.1 group

theorem recordAt_eq {r : Nat × List (Nat × Nat)} {x : Nat} (hx : g.get? r.1 = some x) :
    recordAt g rules errorOnCollisions p r = p.record rules errorOnCollisions r.2 r.1 x := by
  unfold recordAt
  rw [hx]

theorem exists_of_recordAt {r : Nat × List (Nat × Nat)}
    (h : recordAt g rules errorOnCollisions p r = .ok p') :
    ∃ x, g.get? r.1 = some x ∧ p.record rules errorOnCollisions r.2 r.1 x = .ok p' := by
  cases hx : g.get? r.1 with
  | none =>
    unfold recordAt at h
    rw [hx] at h
    cases h
  | some x =>
    rw [recordAt_eq hx] at h
    exact ⟨x, rfl, h⟩

/-- A chunk is recorded document by document. -/
theorem recordChunk_eq {numbers : List (Nat × Nat)} {docs : List Nat}
    (hdocs : ∀ d ∈ docs, d < g.len) : recordChunk g rules errorOnCollisions numbers p docs =
      docs.foldlM (fun p d => recordAt g rules errorOnCollisions p (d, numbers)) p := by
  obtain ⟨groups, hgroups⟩ := exists_mapM fun d hd => Grouping.get?_of_lt_len (hdocs d hd)
  unfold recordChunk
  rw [Grouping.groupsOf?_eq_mapM hdocs, hgroups]
  exact foldlM_zip (f := fun p d x => p.record rules errorOnCollisions numbers d x) hgroups
    (fun d x hx t => recordAt_eq (r := (d, numbers)) hx) p

/-- A run is the loop over its records, whatever the size of the chunks. -/
theorem run_eq (hchunk : 0 < feed.chunk)
    (hdocs : ∀ e ∈ matchPlan feed.shard rules, ∀ d ∈ e.1, d < g.len) (p : Partition) :
    p.run feed g rules errorOnCollisions = (recordsOf (matchPlan feed.shard rules)).foldlM
      (recordAt g rules errorOnCollisions) p := by
  unfold recordsOf
  rw [foldlM_flatMap]
  refine foldlM_ext (fun e he t => ?_) p
  rw [List.foldlM_map, ← foldlM_chunks hchunk]
  refine (drain_eq feed.chunk e.1 _ t).trans ?_
  refine foldlM_ext (fun c hc u => recordChunk_eq fun d hd => ?_) t
  exact hdocs e he d (mem_of_mem_chunks hc hd)

theorem toOption_eq_some {ε α : Type} {x : Except ε α} {a : α} (h : x.toOption = some a) :
    x = .ok a := by
  cases x with
  | error e => cases h
  | ok b => exact congrArg Except.ok (Option.some.inj h)

/-- What one record can do: nothing, or match the document and lower its number. -/
theorem record_cases {numbers : List (Nat × Nat)} {doc group : Nat}
    (h : p.record rules errorOnCollisions numbers doc group = .ok p') :
    (numbers.lookup group = none ∧ p' = p) ∨
      ∃ number recorded, numbers.lookup group = some number ∧
        p.matched.insert? doc = some p'.matched ∧ p.numbers.get? doc = some recorded ∧
        p'.numbers.get? doc = some (min recorded number) ∧
        ∀ d, d ≠ doc → p'.numbers.get? d = p.numbers.get? d := by
  unfold record at h
  split at h
  · rename_i hl
    cases h
    exact .inl ⟨hl, rfl⟩
  · rename_i number hl
    split at h
    · rename_i seen matched recorded hinsert hn
      obtain ⟨m, hm, heq⟩ := Option.map_eq_some_iff.mp hinsert
      obtain rfl : m = matched := congrArg Prod.snd heq
      split_ifs at h with hcollision hlt
      · split at h
        · rename_i updated hs
          cases h
          refine .inr ⟨number, recorded, hl, hm, hn, ?_, fun d hd => ?_⟩
          · rw [Grouping.get?_set? hs, if_pos rfl, hn, Nat.min_eq_right (Nat.le_of_lt hlt)]
            rfl
          · rw [Grouping.get?_set? hs, if_neg hd]
        · cases h
      · cases h
        refine .inr ⟨number, recorded, hl, hm, hn, ?_, fun _ _ => rfl⟩
        rw [Nat.min_eq_left (Nat.le_of_not_lt hlt)]
        exact hn
    · cases h

/-! ### The invariant -/

/-- The number that a document of `group` starts with. -/
def startNumber (rules : List MultiRule) (group : Nat) : Nat :=
  if (ruleFor? rules group).isSome then untouched rules else 0

/-- What is known of a partition after the records `done`. -/
structure Recorded (g : Grouping) (rules : List MultiRule) (done : List (Nat × List (Nat × Nat)))
    (p : Partition) : Prop where
  sized : p.matched.Sized
  len_eq : p.matched.len = g.len
  contains_iff : ∀ d x, g.get? d = some x →
    (p.matched.contains d = true ↔ offers done d x ≠ [])
  number_eq : ∀ d x, g.get? d = some x →
    p.numbers.get? d = some ((offers done d x).foldl min (startNumber rules x))

/-- The start is worked out document by document, whatever the size of the chunks. -/
theorem start?_eq (hlen : feed.numDocs = g.len) : start? feed rules g =
    ((List.range feed.numDocs).foldlM
      (Grouping.move? fun d _ => (g.get? d).map (startNumber rules))
      (.stored (.blank (untouched rules) feed.numDocs))).map (⟨·, .empty feed.numDocs⟩) := by
  generalize hb : Grouping.stored (.blank (untouched rules) feed.numDocs) = blank
  have hblank : blank.len = feed.numDocs := by
    rw [← hb]
    exact Array.size_replicate
  -- a chunk is written as its documents would be one by one
  have hchunk : ∀ c (t : Grouping), c.Nodup → (∀ d ∈ c, d < blank.len) → t.len = blank.len →
      ((g.groupsOf? c).bind fun groups => t.setAll? c (groups.map (startNumber rules))) =
        c.foldlM (Grouping.move? fun d _ => (g.get? d).map (startNumber rules)) t := by
    intro c t hc hlt hlent
    rw [hblank, hlen] at hlt hlent
    have hmarks : (c.mapM fun d => (t.get? d).bind fun _ => (g.get? d).map (startNumber rules)) =
        (c.mapM g.get?).bind fun groups => groups.mapM fun x => some (startNumber rules x) := by
      rw [mapM_bind]
      refine mapM_congr fun d hd => ?_
      obtain ⟨y, hy⟩ := Grouping.get?_of_lt_len (hlent ▸ hlt d hd)
      rw [hy]
      cases g.get? d <;> rfl
    rw [← Grouping.mapM_setAll? hc, hmarks, Grouping.groupsOf?_eq_mapM hlt, Option.bind_assoc]
    refine congrArg _ (funext fun groups => ?_)
    rw [show (groups.mapM fun x => some (startNumber rules x)) =
      some (groups.map (startNumber rules)) from mapM_eq_some_iff.mpr (by simp)]
    rfl
  have hchunks := Grouping.foldlM_chunks_move? (n := max 1 feed.chunk) (fun _ => True) trivial
    (by omega) (fun _ _ _ _ _ => trivial) fun c t hc hlt hlent _ => hchunk c t hc hlt hlent
  rw [hblank] at hchunks
  rw [← hchunks, ← hb]
  exact Option.map_eq_bind.symm

theorem recorded_start? (hlen : feed.numDocs = g.len) (h : start? feed rules g = some p) :
    Recorded g rules [] p := by
  rw [start?_eq hlen] at h
  obtain ⟨numbers, hnumbers, rfl⟩ := Option.map_eq_some_iff.mp h
  generalize hb : Grouping.stored (.blank (untouched rules) feed.numDocs) = blank at hnumbers
  have hblank : blank.len = feed.numDocs := by
    rw [← hb]
    exact Array.size_replicate
  have hmoves := Grouping.moves_of_moves? List.nodup_range
    (fun d hd => hblank.symm ▸ List.mem_range.mp hd) hnumbers
  refine ⟨DocSet.sized_empty _, hlen, ?_, ?_⟩
  · intro d x _
    simp [DocSet.contains_empty, offers]
  · intro d x hx
    have hd : d < feed.numDocs := hlen ▸ Grouping.lt_len_of_get? hx
    obtain ⟨y, hy⟩ := Grouping.get?_of_lt_len (hblank.symm ▸ hd)
    rw [hmoves.moved d (List.mem_range.mpr hd), hy, Option.bind_some, hx]
    rfl

theorem Recorded.of_offers {done records : List (Nat × List (Nat × Nat))}
    (hp : Recorded g rules done p)
    (h : ∀ d x, g.get? d = some x → offers records d x = offers done d x) :
    Recorded g rules records p := by
  refine ⟨hp.sized, hp.len_eq, fun d x hx => ?_, fun d x hx => ?_⟩
  · rw [h d x hx]
    exact hp.contains_iff d x hx
  · rw [h d x hx]
    exact hp.number_eq d x hx

/-- One more record keeps the invariant. -/
theorem Recorded.step {done : List (Nat × List (Nat × Nat))} (hp : Recorded g rules done p)
    {r : Nat × List (Nat × Nat)} (h : recordAt g rules errorOnCollisions p r = .ok p') :
    Recorded g rules (done ++ [r]) p' := by
  obtain ⟨x, hx, h⟩ := exists_of_recordAt h
  have hgroup : ∀ y, g.get? r.1 = some y → y = x := by
    intro y hy
    rw [hx] at hy
    exact (Option.some.inj hy).symm
  rcases record_cases h with
    ⟨hl, rfl⟩ | ⟨number, recorded, hl, hm, hn, hown, hrest⟩
  · -- the record offers nothing to the group of its document
    refine hp.of_offers fun d y hy => offers_concat_same fun hd => ?_
    subst hd
    rw [hgroup y hy, hl]
  · have hother : ∀ d y, d ≠ r.1 → offers (done ++ [r]) d y = offers done d y :=
      fun d y hd => offers_concat_same fun heq => absurd heq.symm hd
    refine ⟨hp.sized.insert? hm, ?_, fun d y hy => ?_, fun d y hy => ?_⟩
    · rw [(DocSet.insert?_eq_some hm).2]
      exact hp.len_eq
    · rw [DocSet.contains_insert? hp.sized hm]
      by_cases hd : d = r.1
      · subst hd
        rw [hgroup y hy, offers_concat_self hl]
        simp
      · rw [hother d y hd, decide_eq_false hd, Bool.or_false]
        exact hp.contains_iff d y hy
    · by_cases hd : d = r.1
      · subst hd
        rw [hp.number_eq _ _ hx] at hn
        rw [hgroup y hy, hown, offers_concat_self hl, List.foldl_append, Option.some.inj hn]
        rfl
      · rw [hrest d hd, hother d y hd]
        exact hp.number_eq d y hy

/-- What a whole run records. -/
theorem Recorded.run (hp : Recorded g rules [] p) (hchunk : 0 < feed.chunk)
    (hdocs : ∀ e ∈ matchPlan feed.shard rules, ∀ d ∈ e.1, d < g.len)
    (h : p.run feed g rules errorOnCollisions = .ok p') :
    Recorded g rules (recordsOf (matchPlan feed.shard rules)) p' :=
  foldlM_induct (Recorded g rules) hp
    (fun _ _ _ _ _ _ ht h => ht.step (toOption_eq_some h))
    (foldlM_toOption ((run_eq hchunk hdocs p).symm.trans h))

/-! ### Records never break -/

/-- A partition that any record can be made in: every number up to that of an untouched document
can be stored, and only documents that exist were matched. -/
structure Ready (g : Grouping) (rules : List MultiRule) (p : Partition) : Prop where
  sized : p.matched.Sized
  len_eq : p.matched.len = g.len
  matched_lt : ∀ d ∈ p.matched.toList, d < g.len
  numbers_len : p.numbers.len = g.len
  numbers_le : p.numbers.All (· ≤ untouched rules)
  accepts : ∀ n ≤ untouched rules, p.numbers.Accepts n

theorem startNumber_le (rules : List MultiRule) (x : Nat) :
    startNumber rules x ≤ untouched rules := by
  unfold startNumber
  split_ifs <;> omega

theorem ready_start? (hlen : feed.numDocs = g.len) (hmax : untouched rules ≤ maxId) :
    ∃ p, start? feed rules g = some p ∧ Ready g rules p := by
  rw [start?_eq hlen]
  generalize hb : StoredGroups.blank (untouched rules) feed.numDocs = blank
  have hblank : (Grouping.stored blank).len = feed.numDocs := by
    rw [← hb]
    exact Array.size_replicate
  -- the words are chosen for the number of an untouched document, and no number is larger
  have haccepts : ∀ n ≤ untouched rules, (Grouping.stored blank).Accepts n := by
    intro n hn
    refine ⟨blank, rfl, ?_⟩
    rw [← hb]
    exact Width.le_maxGroup_fitting hn (by omega)
  have hlt : ∀ d ∈ List.range feed.numDocs, d < (Grouping.stored blank).len :=
    fun d hd => hblank.symm ▸ List.mem_range.mp hd
  have hstart : ∀ d ∈ List.range feed.numDocs, ∃ x, g.get? d = some x :=
    fun d hd => Grouping.get?_of_lt_len (hlen ▸ List.mem_range.mp hd)
  obtain ⟨numbers, hnumbers⟩ := Grouping.exists_moves
    (f := fun d _ => (g.get? d).map (startNumber rules)) List.nodup_range hlt fun d hd _ _ => by
      obtain ⟨x, hx⟩ := hstart d hd
      exact ⟨_, by rw [hx, Option.map_some], haccepts _ (startNumber_le rules x)⟩
  have hmoves := Grouping.moves_of_moves? List.nodup_range hlt hnumbers
  have hnlen := Grouping.len_eq_of_frame hmoves.frame_eq
  refine ⟨_, by rw [hnumbers, Option.map_some], DocSet.sized_empty _, hlen, ?_, ?_, ?_, ?_⟩
  · exact fun d hd => absurd hd (DocSet.not_mem_toList_empty _ _)
  · exact hnlen.trans (hblank.trans hlen)
  · intro d n hn
    have hd : d ∈ List.range feed.numDocs :=
      List.mem_range.mpr (hblank ▸ hnlen ▸ Grouping.lt_len_of_get? hn)
    obtain ⟨x, hx⟩ := hstart d hd
    obtain ⟨y, -, hn⟩ := Option.bind_eq_some_iff.mp ((hmoves.moved d hd).symm.trans hn)
    rw [hx, Option.map_some] at hn
    cases hn
    exact startNumber_le rules x
  · exact fun n hn => (haccepts n hn).of_frame hmoves.frame_eq

/-- A record is made or refused; it does not break. -/
theorem Ready.record (hp : Ready g rules p) {doc : Nat} (hdoc : doc < g.len)
    (numbers : List (Nat × Nat)) (group : Nat) :
    (∃ p', p.record rules errorOnCollisions numbers doc group = .ok p' ∧ Ready g rules p') ∨
      ∃ e, p.record rules errorOnCollisions numbers doc group = .error (.refused e) := by
  unfold Partition.record
  cases numbers.lookup group with
  | none => exact .inl ⟨p, rfl, hp⟩
  | some number =>
    obtain ⟨matched, hm⟩ := DocSet.exists_insert? (hp.len_eq.symm ▸ hdoc)
    obtain ⟨recorded, hrecorded⟩ := Grouping.get?_of_lt_len (hp.numbers_len.symm ▸ hdoc)
    have hlen : matched.len = g.len := (DocSet.len_insert? hm).trans hp.len_eq
    have hlt : ∀ d ∈ matched.toList, d < g.len := by
      intro d hd
      rcases (DocSet.mem_toList_insert? hp.sized hm).mp hd with hd | rfl
      · exact hp.matched_lt d hd
      · exact hdoc
    simp only [DocSet.insertNew?, hm, Option.map_some, hrecorded]
    split_ifs with hcollision hless
    · exact .inr ⟨_, rfl⟩
    · -- a number only ever gets smaller, so its word has room for it
      have hle := hp.numbers_le doc recorded hrecorded
      obtain ⟨updated, hs⟩ := Grouping.exists_set? (hp.numbers_len.symm ▸ hdoc)
        (hp.accepts number (by omega))
      have hframe := Grouping.frame_set? hs
      rw [hs]
      refine .inl ⟨_, rfl, hp.sized.insert? hm, hlen, hlt, ?_, fun d n hn => ?_, fun n hn => ?_⟩
      · exact (Grouping.len_eq_of_frame hframe).trans hp.numbers_len
      · have hn : updated.get? d = some n := hn
        rw [Grouping.get?_set? hs] at hn
        split_ifs at hn
        · obtain ⟨_, -, rfl⟩ := Option.map_eq_some_iff.mp hn
          omega
        · exact hp.numbers_le d n hn
      · exact (hp.accepts n hn).of_frame hframe
    · exact .inl ⟨_, rfl, hp.sized.insert? hm, hlen, hlt, hp.numbers_len, hp.numbers_le, hp.accepts⟩

/-- Nor does a run: it goes through or is refused by a collision. -/
theorem Ready.run (hp : Ready g rules p) (hchunk : 0 < feed.chunk)
    (hdocs : ∀ e ∈ matchPlan feed.shard rules, ∀ d ∈ e.1, d < g.len) :
    (∃ p', p.run feed g rules errorOnCollisions = .ok p' ∧ Ready g rules p') ∨
      ∃ e, p.run feed g rules errorOnCollisions = .error (.refused e) := by
  rw [run_eq hchunk hdocs]
  refine foldlM_unbroken (Ready g rules) hp fun r hr q hq => ?_
  obtain ⟨e, he, hr⟩ := List.mem_flatMap.mp hr
  obtain ⟨d, hd, rfl⟩ := List.mem_map.mp hr
  have hlt := hdocs e he d hd
  obtain ⟨x, hx⟩ := Grouping.get?_of_lt_len hlt
  rw [recordAt_eq hx]
  exact hq.record hlt e.2 x

theorem Ready.of_run {p' : Partition} (hp : Ready g rules p) (hchunk : 0 < feed.chunk)
    (hdocs : ∀ e ∈ matchPlan feed.shard rules, ∀ d ∈ e.1, d < g.len)
    (h : p.run feed g rules errorOnCollisions = .ok p') : Ready g rules p' := by
  rcases hp.run hchunk hdocs with ⟨p'', hrun, hready⟩ | ⟨e, he⟩
  · exact Except.ok.inj (hrun.symm.trans h) ▸ hready
  · cases he.symm.trans h

theorem Ready.run_unbroken (hp : Ready g rules p) (hchunk : 0 < feed.chunk)
    (hdocs : ∀ e ∈ matchPlan feed.shard rules, ∀ d ∈ e.1, d < g.len) :
    p.run feed g rules errorOnCollisions ≠ .error .broken := by
  intro h
  rcases hp.run hchunk hdocs with ⟨p', hrun, -⟩ | ⟨e, he⟩
  · cases hrun.symm.trans h
  · cases he.symm.trans h

end Cohort.Regroup.Partition
