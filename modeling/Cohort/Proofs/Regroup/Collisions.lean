import Cohort.Proofs.Regroup.MultiRules
import Cohort.Proofs.Rule.Fit

/-!
# Collisions — when the sweep of an equality split is refused

A plan has at most one entry for a term of a field, which `keyedPlan` makes visible. A document of
an equality split is therefore offered as many numbers as it holds different terms of the split,
however often one term is asked for, and whatever the other rules ask of the same field. The run of
the plan is refused at the second offer.
-/

namespace Cohort.Regroup

open MultiRule (Checked IsSplit Keeps Unfit)
open Pass

variable {shard : Shard} {rules : List MultiRule} {r : MultiRule} {doc group : Nat}

/-! ### Plans by terms -/

/-- The entries of a plan with the field and the term that each stands for. -/
def keyedPlan (shard : Shard) (rules : List MultiRule) :
    List ((String × Term) × List Nat × List (Nat × Nat)) :=
  let numbered := numberConditions rules
  let conditions := numbered.map (·.condition)
  let ints := (fieldNames true conditions).flatMap fun field =>
    (fieldMatches (testsOf intOf? field numbered) (shard.intPostings field)).map
      fun m => ((field, .int m.1), m.2)
  let strings := (fieldNames false conditions).flatMap fun field =>
    (fieldMatches (testsOf stringOf? field numbered) (shard.stringPostings field)).map
      fun m => ((field, .str m.1), m.2)
  ints ++ strings

theorem map_keyedPlan (shard : Shard) (rules : List MultiRule) :
    (keyedPlan shard rules).map (·.2) = matchPlan shard rules := by
  unfold keyedPlan matchPlan
  simp only [List.map_append, List.map_flatMap, List.map_map, intFieldTests_eq,
    stringFieldTests_eq]
  rfl

theorem mem_keyedPlan {e : (String × Term) × List Nat × List (Nat × Nat)} :
    e ∈ keyedPlan shard rules ↔
    (∃ field ∈ fieldNames true ((numberConditions rules).map (·.condition)),
      ∃ m ∈ fieldMatches (testsOf intOf? field (numberConditions rules)) (shard.intPostings field),
        ((field, .int m.1), m.2) = e) ∨
    ∃ field ∈ fieldNames false ((numberConditions rules).map (·.condition)),
      ∃ m ∈ fieldMatches (testsOf stringOf? field (numberConditions rules))
        (shard.stringPostings field), ((field, .str m.1), m.2) = e := by
  unfold keyedPlan
  simp only [List.mem_append, List.mem_flatMap, List.mem_map]

section Fields

variable {τ : Type} [LinearOrder τ] {read : Term → Option τ} {field : String}
  {numbered : List NumberedCondition} {p : Postings τ} {numDocs : Nat}

theorem pairwise_fieldMatches (hasc : numbered.Pairwise fun c d => c.number < d.number)
    (hp : p.Ascending numDocs) :
    (fieldMatches (testsOf read field numbered) p).Pairwise fun a b => a.1 < b.1 := by
  rw [fieldMatches_eq (pairwise_testsOf hasc) hp.terms]
  exact pairwise_filterMap_matchOf hp.terms

theorem nodup_of_mem_fieldMatches (hasc : numbered.Pairwise fun c d => c.number < d.number)
    (hp : p.Ascending numDocs) {m : τ × List Nat × List (Nat × Nat)}
    (hm : m ∈ fieldMatches (testsOf read field numbered) p) : m.2.1.Nodup := by
  rw [fieldMatches_eq (pairwise_testsOf hasc) hp.terms] at hm
  obtain ⟨e, he, hm⟩ := List.mem_filterMap.mp hm
  obtain ⟨-, rfl⟩ := matchOf_eq_some.mp hm
  exact (hp.docs e he).imp fun hlt => Nat.ne_of_lt hlt

/-- The keys of one kind of fields differ. -/
theorem pairwise_keys (hasc : numbered.Pairwise fun c d => c.number < d.number)
    {fields : List String} (hfields : fields.Pairwise (· < ·)) {postings : String → Postings τ}
    (hp : ∀ field, (postings field).Ascending numDocs) {wrap : τ → Term}
    (hwrap : ∀ u v, wrap u = wrap v → u = v) :
    (fields.flatMap fun field =>
      (fieldMatches (testsOf read field numbered) (postings field)).map
        fun m => ((field, wrap m.1), m.2)).Pairwise fun e f => e.1 ≠ f.1 := by
  refine List.pairwise_flatMap.mpr ⟨fun field _ => ?_, hfields.imp fun hlt => ?_⟩
  · rw [List.pairwise_map]
    refine (pairwise_fieldMatches hasc (hp field)).imp fun hlt heq => ?_
    exact absurd (hwrap _ _ (Prod.mk.inj heq).2) (ne_of_lt hlt)
  · intro e he f hf heq
    obtain ⟨m, -, rfl⟩ := List.mem_map.mp he
    obtain ⟨n, -, rfl⟩ := List.mem_map.mp hf
    exact absurd (Prod.mk.inj heq).1 (ne_of_lt hlt)

end Fields

theorem pairwise_keyedPlan (hs : shard.Ascending) (rules : List MultiRule) :
    (keyedPlan shard rules).Pairwise fun e f => e.1 ≠ f.1 := by
  have hasc := pairwise_numberConditions rules
  refine List.pairwise_append.mpr ⟨?_, ?_, ?_⟩
  · exact pairwise_keys hasc (pairwise_distinctSorted _) hs.intPostings fun _ _ => Term.int.inj
  · exact pairwise_keys hasc (pairwise_distinctSorted _) hs.stringPostings fun _ _ => Term.str.inj
  · intro e he f hf heq
    obtain ⟨_, -, he⟩ := List.mem_flatMap.mp he
    obtain ⟨_, -, hf⟩ := List.mem_flatMap.mp hf
    obtain ⟨m, -, rfl⟩ := List.mem_map.mp he
    obtain ⟨n, -, rfl⟩ := List.mem_map.mp hf
    cases (Prod.mk.inj heq).2

theorem nodup_of_mem_keyedPlan (hs : shard.Ascending)
    {e : (String × Term) × List Nat × List (Nat × Nat)} (he : e ∈ keyedPlan shard rules) :
    e.2.1.Nodup := by
  have hasc := pairwise_numberConditions rules
  rcases mem_keyedPlan.mp he with ⟨field, -, m, hm, rfl⟩ | ⟨field, -, m, hm, rfl⟩
  · exact nodup_of_mem_fieldMatches hasc (hs.intPostings field) hm
  · exact nodup_of_mem_fieldMatches hasc (hs.stringPostings field) hm

theorem nodup_of_mem_matchPlan (hs : shard.Ascending) {e : List Nat × List (Nat × Nat)}
    (he : e ∈ matchPlan shard rules) : e.1.Nodup := by
  rw [← map_keyedPlan] at he
  obtain ⟨keyed, hmem, rfl⟩ := List.mem_map.mp he
  exact nodup_of_mem_keyedPlan hs hmem

/-- Only its own term passes an equality. -/
theorem read_of_passes {τ : Type} [LinearOrder τ] {read : Term → Option τ} {c : Condition} {v : τ}
    (hc : c.inequality = false) (h : Passes read c v) : read c.term = some v := by
  obtain ⟨t, ht, hholds⟩ := h
  unfold FieldTest.holds at hholds
  rw [hc] at hholds
  rw [ht, show t = v by simpa using hholds]

theorem intOf?_eq_some {t : Term} {v : Int} : intOf? t = some v ↔ t = .int v := by
  cases t <;> simp [intOf?]

theorem stringOf?_eq_some {t : Term} {v : String} : stringOf? t = some v ↔ t = .str v := by
  cases t <;> simp [stringOf?]

/-- An entry that offers a document something stands for a term that it holds, and if the condition
is an equality, for the term of that condition. -/
theorem satisfies_of_keyed (hs : shard.Ascending)
    {e : (String × Term) × List Nat × List (Nat × Nat)} (he : e ∈ keyedPlan shard rules)
    (hdoc : doc ∈ e.2.1) {k : Nat} (hk : e.2.2.lookup group = some k) :
    ∃ c ∈ numberConditions rules, c.target = group ∧
      Meaning.satisfies shard doc c.condition = true ∧ c.condition.field = e.1.1 ∧
      (c.condition.inequality = false → c.condition.term = e.1.2) := by
  have hasc := pairwise_numberConditions rules
  rcases mem_keyedPlan.mp he with ⟨field, -, m, hm, rfl⟩ | ⟨field, -, m, hm, rfl⟩
  · obtain ⟨c, hc, rfl, htarget, -, hv⟩ :=
      passes_of_fieldMatches hasc (hs.intPostings field) hm hdoc hk
    exact ⟨c, hc, htarget, (satisfies_iff c.condition).mpr (.inl ⟨_, hv⟩), rfl,
      fun hi => intOf?_eq_some.mp (read_of_passes hi hv.2)⟩
  · obtain ⟨c, hc, rfl, htarget, -, hv⟩ :=
      passes_of_fieldMatches hasc (hs.stringPostings field) hm hdoc hk
    exact ⟨c, hc, htarget, (satisfies_iff c.condition).mpr (.inr ⟨_, hv⟩), rfl,
      fun hi => stringOf?_eq_some.mp (read_of_passes hi hv.2)⟩

/-- For every equality that a document satisfies, the entry of its term offers it something. -/
theorem keyed_of_satisfies (hs : shard.Ascending) {c : NumberedCondition}
    (hc : c ∈ numberConditions rules) (hi : c.condition.inequality = false)
    (hsat : Meaning.satisfies shard doc c.condition = true) :
    ∃ e ∈ keyedPlan shard rules, e.1 = (c.condition.field, c.condition.term) ∧ doc ∈ e.2.1 ∧
      ∃ k, e.2.2.lookup c.target = some k := by
  have hasc := pairwise_numberConditions rules
  have hmem : c.condition ∈ (numberConditions rules).map (·.condition) := List.mem_map_of_mem hc
  rcases (satisfies_iff c.condition).mp hsat with ⟨v, hv, hpass⟩ | ⟨v, hv, hpass⟩
  · obtain ⟨m, hm, rfl, hdoc, k, -, hk⟩ :=
      fieldMatches_of_passes hasc (hs.intPostings c.condition.field) hc rfl hv hpass
    have hfield := mem_fieldNames hmem (isInt_of_passes hpass)
    refine ⟨_, mem_keyedPlan.mpr (.inl ⟨_, hfield, m, hm, rfl⟩), ?_, hdoc, k, hk⟩
    rw [intOf?_eq_some.mp (read_of_passes hi hpass)]
  · obtain ⟨m, hm, rfl, hdoc, k, -, hk⟩ :=
      fieldMatches_of_passes hasc (hs.stringPostings c.condition.field) hc rfl hv hpass
    have hfield := mem_fieldNames hmem (not_isInt_of_passes hpass)
    refine ⟨_, mem_keyedPlan.mpr (.inr ⟨_, hfield, m, hm, rfl⟩), ?_, hdoc, k, hk⟩
    rw [stringOf?_eq_some.mp (read_of_passes hi hpass)]

/-! ### Counting offers -/

/-- Entries whose keys differ give two results if two of them give any. -/
theorem two_le_length_filterMap {α β κ : Type} {key : α → κ} {f : α → Option β} {xs : List α}
    (hxs : xs.Pairwise fun a b => key a ≠ key b) : 2 ≤ (xs.filterMap f).length ↔
      ∃ a ∈ xs, ∃ b ∈ xs, key a ≠ key b ∧ (f a).isSome ∧ (f b).isSome := by
  induction xs with
  | nil => simp
  | cons x xs ih =>
    obtain ⟨hx, hxs⟩ := List.pairwise_cons.mp hxs
    rw [List.filterMap_cons]
    cases hfx : f x with
    | none =>
      rw [ih hxs]
      constructor
      · rintro ⟨a, ha, b, hb, h⟩
        exact ⟨a, List.mem_cons_of_mem _ ha, b, List.mem_cons_of_mem _ hb, h⟩
      · rintro ⟨a, ha, b, hb, hkey, hfa, hfb⟩
        have hrest : ∀ c ∈ x :: xs, (f c).isSome → c ∈ xs := by
          intro c hc hfc
          rcases List.mem_cons.mp hc with rfl | hc
          · rw [hfx] at hfc
            cases hfc
          · exact hc
        exact ⟨a, hrest a ha hfa, b, hrest b hb hfb, hkey, hfa, hfb⟩
    | some y =>
      -- the first entry gives one result, so one more among the others is enough
      have hone : 2 ≤ (y :: xs.filterMap f).length ↔ ∃ b ∈ xs, (f b).isSome := by
        rw [List.length_cons, Nat.succ_le_succ_iff, Nat.succ_le_iff, List.length_pos_iff_exists_mem]
        simp only [List.mem_filterMap, Option.isSome_iff_exists]
        exact ⟨fun ⟨z, b, hb, hz⟩ => ⟨b, hb, z, hz⟩, fun ⟨b, hb, z, hz⟩ => ⟨z, b, hb, hz⟩⟩
      rw [hone]
      constructor
      · rintro ⟨b, hb, hfb⟩
        exact ⟨x, List.mem_cons_self, b, List.mem_cons_of_mem _ hb, hx b hb, by rw [hfx]; rfl, hfb⟩
      · rintro ⟨a, ha, b, hb, hkey, hfa, hfb⟩
        rcases List.mem_cons.mp ha with rfl | ha
        · rcases List.mem_cons.mp hb with rfl | hb
          · exact absurd rfl hkey
          · exact ⟨b, hb, hfb⟩
        · exact ⟨a, ha, hfa⟩

namespace Partition

/-- The number that an entry of a plan offers to a document. -/
def offerOf? (e : List Nat × List (Nat × Nat)) (doc group : Nat) : Option Nat :=
  if doc ∈ e.1 then e.2.lookup group else none

theorem isSome_offerOf? {e : List Nat × List (Nat × Nat)} : (offerOf? e doc group).isSome = true ↔
    doc ∈ e.1 ∧ ∃ k, e.2.lookup group = some k := by
  unfold offerOf?
  split_ifs with hdoc <;> simp [hdoc, Option.isSome_iff_exists]

/-- An entry names a document once, so it is one offer. -/
theorem offers_of_nodup {docs : List Nat} (hdocs : docs.Nodup) (numbers : List (Nat × Nat)) :
    offers (docs.map (·, numbers)) doc group = (offerOf? (docs, numbers) doc group).toList := by
  unfold offers offerOf?
  induction docs with
  | nil => rfl
  | cons d docs ih =>
    obtain ⟨hd, hrest⟩ := List.nodup_cons.mp hdocs
    have ih := ih hrest
    simp only [List.map_cons, List.filterMap_cons] at ih ⊢
    by_cases hdoc : d = doc
    · subst hdoc
      rw [if_neg hd] at ih
      rw [if_pos rfl, if_pos List.mem_cons_self, ih]
      cases numbers.lookup group <;> rfl
    · have hmem : doc ∈ d :: docs ↔ doc ∈ docs := by simp [Ne.symm hdoc]
      rw [if_neg hdoc, ih]
      simp only [hmem]

/-- An entry offers at most one number to a document. -/
theorem offers_recordsOf {plan : List (List Nat × List (Nat × Nat))}
    (hplan : ∀ e ∈ plan, e.1.Nodup) (doc group : Nat) :
    offers (recordsOf plan) doc group = plan.filterMap (offerOf? · doc group) := by
  induction plan with
  | nil => rfl
  | cons e plan ih =>
    obtain ⟨he, hrest⟩ := List.forall_mem_cons.mp hplan
    have hcons : offers (recordsOf (e :: plan)) doc group =
        offers (e.1.map (·, e.2)) doc group ++ offers (recordsOf plan) doc group := by
      unfold offers recordsOf
      rw [List.flatMap_cons, List.filterMap_append]
    rw [hcons, offers_of_nodup he, ih hrest, List.filterMap_cons]
    cases offerOf? e doc group <;> rfl

/-- What offers a document of a split something stands for a term of the split that it holds. -/
theorem condition_of_offerOf? (hs : shard.Ascending) {first : Nat} (hn : Numbered rules r first)
    (hsplit : r.IsSplit) {e : (String × Term) × List Nat × List (Nat × Nat)}
    (he : e ∈ keyedPlan shard rules) (hoffer : (offerOf? e.2 doc r.target).isSome = true) :
    ∃ c ∈ r.conditions, (c.field, c.term) = e.1 ∧ Meaning.satisfies shard doc c = true := by
  obtain ⟨hdoc, k, hk⟩ := isSome_offerOf?.mp hoffer
  obtain ⟨c, hc, htarget, hsat, hfield, hterm⟩ := satisfies_of_keyed hs he hdoc hk
  have hmem := hn.condition_mem hc htarget
  exact ⟨_, hmem, Prod.ext hfield (hterm (hsplit.equality _ hmem)), hsat⟩

/-- A document of a split is offered something for every term of the split that it holds. -/
theorem offerOf?_of_condition (hs : shard.Ascending) {first : Nat} (hn : Numbered rules r first)
    (hsplit : r.IsSplit) {c : Condition} (hc : c ∈ r.conditions)
    (hsat : Meaning.satisfies shard doc c = true) :
    ∃ e ∈ keyedPlan shard rules, e.1 = (c.field, c.term) ∧
      (offerOf? e.2 doc r.target).isSome = true := by
  obtain ⟨d, hd, htarget, rfl⟩ := hn.exists_numbered hc
  obtain ⟨e, he, hkey, hdoc, k, hk⟩ := keyed_of_satisfies hs hd (hsplit.equality _ hc) hsat
  exact ⟨e, he, hkey, isSome_offerOf?.mpr ⟨hdoc, k, htarget ▸ hk⟩⟩

/-- A document of an equality split is offered two numbers if it holds two different terms of the
split. -/
theorem two_le_offers_iff (hs : shard.Ascending) (hc : Checked rules) (hr : r ∈ rules)
    (hsplit : r.IsSplit) : 2 ≤ (offers (recordsOf (matchPlan shard rules)) doc r.target).length ↔
      ∃ c ∈ r.conditions, ∃ d ∈ r.conditions, c.term ≠ d.term ∧
        Meaning.satisfies shard doc c = true ∧ Meaning.satisfies shard doc d = true := by
  obtain ⟨first, hn⟩ := numbered_of_checked hc hr
  rw [offers_recordsOf fun e => nodup_of_mem_matchPlan hs, ← map_keyedPlan, List.filterMap_map,
    two_le_length_filterMap (pairwise_keyedPlan hs rules)]
  simp only [Function.comp]
  constructor
  · rintro ⟨e, he, f, hf, hkey, hse, hsf⟩
    obtain ⟨c, hc, hce, hcsat⟩ := condition_of_offerOf? hs hn hsplit he hse
    obtain ⟨d, hd, hdf, hdsat⟩ := condition_of_offerOf? hs hn hsplit hf hsf
    -- all conditions of a split are about one field, so the keys differ in the term
    have hfield := (hsplit.same c hc d hd).1
    refine ⟨c, hc, d, hd, fun hterm => hkey ?_, hcsat, hdsat⟩
    rw [← hce, ← hdf, hfield, hterm]
  · rintro ⟨c, hc, d, hd, hterm, hcsat, hdsat⟩
    obtain ⟨e, he, hec, hse⟩ := offerOf?_of_condition hs hn hsplit hc hcsat
    obtain ⟨f, hf, hfd, hsf⟩ := offerOf?_of_condition hs hn hsplit hd hdsat
    refine ⟨e, he, f, hf, fun hkey => hterm ?_, hse, hsf⟩
    rw [hec, hfd] at hkey
    exact (Prod.mk.inj hkey).2

/-! ### Refused records -/

variable {feed : Feed} {g : Grouping} {errorOnCollisions : Bool} {p p' : Partition}

/-- The rule of the group is an equality split. -/
def splits (rules : List MultiRule) (group : Nat) : Bool :=
  (ruleFor? rules group).any (·.splitField?.isSome)

theorem splits_iff (hc : Checked rules) :
    splits rules group = true ↔ ∃ r ∈ rules, r.target = group ∧ r.IsSplit := by
  unfold splits
  rw [Option.any_eq_true]
  constructor
  · rintro ⟨r, hr, hsplit⟩
    exact ⟨r, List.mem_of_find?_eq_some hr, by simpa using List.find?_some hr,
      MultiRule.isSome_splitField?.mp hsplit⟩
  · rintro ⟨r, hr, rfl, hsplit⟩
    exact ⟨r, hc.find?_eq hr, MultiRule.isSome_splitField?.mpr hsplit⟩

/-- A record is refused at a document of an equality split that was matched before. -/
theorem record_refused {numbers : List (Nat × Nat)} {e : Error}
    (h : p.record rules errorOnCollisions numbers doc group = .error (.refused e)) :
    (∃ number, numbers.lookup group = some number) ∧ p.matched.contains doc = true ∧
      errorOnCollisions = true ∧ splits rules group = true ∧
      e = .illegalState (.splitCollision doc group) := by
  unfold record DocSet.insertNew? at h
  split at h
  · cases h
  · rename_i number hl
    split at h
    · rename_i seen matched recorded hinsert hn
      obtain ⟨m, -, heq⟩ := Option.map_eq_some_iff.mp hinsert
      obtain ⟨rfl, rfl⟩ := Prod.mk.inj heq
      split_ifs at h with hcollision hlt
      · cases h
        simp only [Bool.and_eq_true] at hcollision
        exact ⟨⟨number, hl⟩, hcollision.1.1, hcollision.1.2, hcollision.2, rfl⟩
      · split at h <;> cases h
    · cases h

/-- Where equality splits must not collide, a record that is made matches its document for the first
time. -/
theorem not_contains_of_record {numbers : List (Nat × Nat)} {number : Nat}
    (h : p.record rules true numbers doc group = .ok p') (hl : numbers.lookup group = some number)
    (hsplits : splits rules group = true) : p.matched.contains doc = false := by
  unfold record DocSet.insertNew? at h
  rw [hl] at h
  simp only at h
  split at h
  · rename_i seen matched recorded hinsert hn
    obtain ⟨m, -, heq⟩ := Option.map_eq_some_iff.mp hinsert
    obtain ⟨rfl, rfl⟩ := Prod.mk.inj heq
    unfold splits at hsplits
    rw [hsplits, Bool.and_true, Bool.and_true] at h
    split_ifs at h with hcontains
    · exact Bool.not_eq_true _ ▸ hcontains
    · exact Bool.not_eq_true _ ▸ hcontains
  · cases h

/-- A run that is refused stops at a second offer. -/
theorem Recorded.run_refused (hp : Recorded g rules [] p) (hchunk : 0 < feed.chunk)
    (hdocs : ∀ e ∈ matchPlan feed.shard rules, ∀ d ∈ e.1, d < g.len) {e : Error}
    (h : p.run feed g rules errorOnCollisions = .error (.refused e)) :
    errorOnCollisions = true ∧ ∃ doc group, e = .illegalState (.splitCollision doc group) ∧
      g.get? doc = some group ∧ splits rules group = true ∧
      2 ≤ (offers (recordsOf (matchPlan feed.shard rules)) doc group).length := by
  rw [run_eq hchunk hdocs] at h
  obtain ⟨done, r, rest, t, hrecords, hdone, hr⟩ := exists_of_foldlM_error h
  have ht : Recorded g rules done t := foldlM_induct (Recorded g rules) hp
    (fun _ _ _ _ _ _ hu hstep => hu.step (toOption_eq_some hstep)) (foldlM_toOption hdone)
  cases hx : g.get? r.1 with
  | none =>
    unfold recordAt at hr
    rw [hx] at hr
    cases hr
  | some x =>
    rw [recordAt_eq hx] at hr
    obtain ⟨⟨number, hl⟩, hseen, heoc, hsplits, rfl⟩ := record_refused hr
    refine ⟨heoc, r.1, x, rfl, hx, hsplits, ?_⟩
    have hbefore : 0 < (offers done r.1 x).length :=
      List.length_pos_iff.mpr ((ht.contains_iff r.1 x hx).mp hseen)
    -- the record that was refused is the second offer; those after it only add to them
    have hmore : offers (recordsOf (matchPlan feed.shard rules)) r.1 x =
        offers (done ++ [r]) r.1 x ++ offers rest r.1 x := by
      rw [hrecords, List.append_cons]
      exact List.filterMap_append
    rw [hmore, offers_concat_self hl, List.length_append, List.length_append, List.length_singleton]
    omega

/-- A run that goes through offers no document of an equality split a second number, if these must
not collide. -/
theorem Recorded.run_single (hp : Recorded g rules [] p) (hchunk : 0 < feed.chunk)
    (hdocs : ∀ e ∈ matchPlan feed.shard rules, ∀ d ∈ e.1, d < g.len)
    (h : p.run feed g rules true = .ok p') (hx : g.get? doc = some group)
    (hsplits : splits rules group = true) :
    (offers (recordsOf (matchPlan feed.shard rules)) doc group).length ≤ 1 := by
  rw [run_eq hchunk hdocs] at h
  refine (foldlM_induct (fun done t => Recorded g rules done t ∧
    (offers done doc group).length ≤ 1) ⟨hp, Nat.zero_le 1⟩ ?_ (foldlM_toOption h)).2
  rintro done r rest t t' - ⟨ht, hle⟩ hr
  have hr := toOption_eq_some hr
  refine ⟨ht.step hr, ?_⟩
  obtain ⟨y, hy, hr⟩ := exists_of_recordAt hr
  by_cases hoffer : r.1 = doc → r.2.lookup group = none
  · rw [offers_concat_same hoffer]
    exact hle
  · simp only [Classical.not_imp, ← ne_eq, Option.ne_none_iff_exists'] at hoffer
    obtain ⟨rfl, number, hl⟩ := hoffer
    obtain rfl := Option.some.inj (hy.symm.trans hx)
    have hnew := not_contains_of_record hr hl hsplits
    have hnone : offers done r.1 y = [] := by
      by_contra hne
      rw [(ht.contains_iff r.1 y hx).mpr hne] at hnew
      cases hnew
    rw [offers_concat_self hl, hnone]
    exact Nat.le_refl 1

end Partition

/-! ### Refused rules -/

/-- The document holds two different terms of the equality split that targets its group. -/
def Collides (shard : Shard) (rules : List MultiRule) (doc group : Nat) : Prop :=
  ∃ r ∈ rules, r.target = group ∧ r.IsSplit ∧ ∃ c ∈ r.conditions, ∃ d ∈ r.conditions,
    c.term ≠ d.term ∧ Meaning.satisfies shard doc c = true ∧ Meaning.satisfies shard doc d = true

theorem collides_iff (hs : shard.Ascending) (hc : Checked rules) : Collides shard rules doc group ↔
    Partition.splits rules group = true ∧
      2 ≤ (Partition.offers (Partition.recordsOf (matchPlan shard rules)) doc group).length := by
  rw [Partition.splits_iff hc]
  constructor
  · rintro ⟨r, hr, rfl, hsplit, hterms⟩
    exact ⟨⟨r, hr, rfl, hsplit⟩, (Partition.two_le_offers_iff hs hc hr hsplit).mpr hterms⟩
  · rintro ⟨⟨r, hr, rfl, hsplit⟩, htwo⟩
    exact ⟨r, hr, rfl, hsplit, (Partition.two_le_offers_iff hs hc hr hsplit).mp htwo⟩

/-- Rules that move documents may not be applied, as equality splits must not collide and the
documents of `g` do. -/
structure Colliding (shard : Shard) (rules : List MultiRule) (errorOnCollisions : Bool)
    (g : Grouping) (doc group : Nat) : Prop where
  forbidden : errorOnCollisions = true
  not_keeps : ¬ Keeps rules g.numGroups
  get?_eq : g.get? doc = some group
  collides : Collides shard rules doc group

variable {feed : Feed} {g : Grouping} {errorOnCollisions : Bool}

/-- With all documents filtered out there is nothing to move. -/
theorem Colliding.one_lt_numGroups
    (h : Colliding shard rules errorOnCollisions g doc group) : 1 < g.numGroups := by
  by_contra hn
  exact h.not_keeps fun group h0 hlt => by omega

theorem Colliding.rules_ne_nil (h : Colliding shard rules errorOnCollisions g doc group) :
    rules ≠ [] := by
  rintro rfl
  obtain ⟨r, hr, -⟩ := h.collides
  cases hr

theorem not_unfit_nil : ¬ Unfit [] := by
  rintro (⟨⟨⟩, -⟩ | ⟨⟨⟩, -⟩ | h | ⟨⟨⟩, -, -⟩)
  exact h List.nodup_nil

/-- The sweep is refused if documents collide that must not, and only then. -/
theorem completes_sweep (hg : g.Counted feed.numDocs) (hs : feed.shard.Ascending)
    (hchunk : 0 < feed.chunk) (hc : Checked rules) (hmoves : ¬ Keeps rules g.numGroups)
    (errorOnCollisions : Bool) (m : Nat) :
    Completes (grouping >>= fun t => orBroken (Partition.start? feed rules t) >>= fun p =>
        orBroken (asId? (MultiRule.numConditions rules)) >>= fun _ =>
          orFail (p.run feed t rules errorOnCollisions) >>= fun p =>
            change (p.finish? feed rules) >>= fun _ => recount) (g.roomFor m)
      (fun _ _ => ¬ ∃ doc group, Colliding feed.shard rules errorOnCollisions g doc group)
      (fun e _ => ∃ doc group, e = .illegalState (.splitCollision doc group) ∧
        Colliding feed.shard rules errorOnCollisions g doc group) True := by
  have hlen : (g.roomFor m).len = feed.numDocs := (Grouping.len_roomFor g m).trans hg.len_eq
  have hdocs : ∀ e ∈ matchPlan feed.shard rules, ∀ d ∈ e.1, d < (g.roomFor m).len :=
    fun e he d hd => hlen.symm ▸ lt_numDocs_of_mem_matchPlan hs he hd
  refine completes_bind (completes_grouping (completes_bind (completes_orBroken
    (fun p0 hp0 => ?_) fun _ => trivial)))
  have hstart := Partition.recorded_start? hlen.symm hp0
  refine completes_bind (completes_orBroken (fun _ _ => ?_) fun _ => trivial)
  refine completes_bind (completes_orFail (fun p hp => ?_) (fun e he => ?_) fun _ => trivial)
  · refine completes_bind (completes_change (fun g' hg' => ⟨?_, completes_recount (fun g'' _ => ?_)
      fun _ => trivial⟩) fun _ => trivial)
    · exact Grouping.bytes_eq_of_frame (overwrites_finish? (fun _ hx => hx) hg').frame_eq
    · rintro ⟨doc, group, hforbidden, -, hx, hcollides⟩
      obtain ⟨hsplits, htwo⟩ := (collides_iff hs hc).mp hcollides
      rw [hforbidden] at hp
      have hone := hstart.run_single hchunk hdocs hp
        ((Grouping.get?_roomFor g m doc).trans hx) hsplits
      omega
  · obtain ⟨hforbidden, doc, group, rfl, hx, hsplits, htwo⟩ := hstart.run_refused hchunk hdocs he
    exact ⟨doc, group, rfl, hforbidden, hmoves, (Grouping.get?_roomFor g m doc).symm.trans hx,
      (collides_iff hs hc).mpr ⟨hsplits, htwo⟩⟩

/-- As long as there is memory, rules are refused if they are unfit or if documents collide, unless
no group is left to move. -/
theorem completes_byMultiRules (hg : g.Counted feed.numDocs) (hs : feed.shard.Ascending)
    (hchunk : 0 < feed.chunk) (rules : List MultiRule) (errorOnCollisions : Bool) :
    Completes (byMultiRules feed rules errorOnCollisions) g
      (fun _ _ => (1 < g.numGroups → ¬ Unfit rules) ∧
        ¬ ∃ doc group, Colliding feed.shard rules errorOnCollisions g doc group)
      (fun e _ => (∃ s, e = .outOfMemory s) ∨
        (1 < g.numGroups ∧ Unfit rules ∧ ∃ cause, e = .invalidArgument cause) ∨
        (¬ Unfit rules ∧ ∃ doc group, e = .illegalState (.splitCollision doc group) ∧
          Colliding feed.shard rules errorOnCollisions g doc group)) True := by
  refine completes_unlessFilteredOut (fun hle => ?_) fun hn => ?_
  · refine ⟨fun hn => absurd hn (Nat.not_lt_of_le hle), ?_⟩
    rintro ⟨doc, group, hcolliding⟩
    exact absurd hcolliding.one_lt_numGroups (Nat.not_lt_of_le hle)
  by_cases hempty : rules = []
  · subst hempty
    refine completes_bind (completes_replace (completes_pure ⟨fun _ => not_unfit_nil, ?_⟩))
    rintro ⟨doc, group, hcolliding⟩
    exact hcolliding.rules_ne_nil rfl
  rw [if_neg (by simpa using hempty)]
  refine completes_bind (completes_orBroken (fun _ _ => ?_) fun _ => trivial)
  refine completes_bind (completes_scratch ?_ fun s => .inl ⟨s, rfl⟩)
  rcases MultiRule.checkMultiRules_cases rules with ⟨highest, hok, hfit⟩ | ⟨cause, herr, hunfit⟩
  · rw [hok]
    refine completes_pure ?_
    have hc := MultiRule.checked_of_checkMultiRules hok
    have hid := hc.isIdentityList_iff (Nat.zero_lt_of_lt hn)
    by_cases hkeeps : MultiRule.isIdentityList rules g.numGroups
    · rw [if_pos hkeeps]
      refine completes_pure ⟨fun _ => hfit, ?_⟩
      rintro ⟨doc, group, hcolliding⟩
      exact hcolliding.not_keeps (hid.mp hkeeps)
    · rw [if_neg hkeeps]
      refine completes_bind (completes_makeRoom hg ?_ fun s => .inl ⟨s, rfl⟩)
      refine completes_scratch ?_ fun s => .inl ⟨s, rfl⟩
      refine completes_bind (completes_orBroken (fun _ _ => ?_) fun _ => trivial)
      refine completes_scratch ?_ fun s => .inl ⟨s, rfl⟩
      refine completes_scratch ?_ fun s => .inl ⟨s, rfl⟩
      exact (completes_sweep hg hs hchunk hc (fun h => hkeeps (hid.mpr h)) _ _).mono
        (fun _ _ h => ⟨fun _ => hfit, h⟩) (fun _ _ h => .inr (.inr ⟨hfit, h⟩)) id
  · rw [herr]
    exact completes_refusal (.inr (.inl ⟨hn, hunfit, cause, rfl⟩))

end Cohort.Regroup
