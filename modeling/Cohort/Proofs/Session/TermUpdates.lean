import Cohort.Proofs.Session.Counters

/-!
# Term updates — what is added for conditions and their deltas

An update by term visits posting lists and adds for all documents of each. Within groups it keeps a
table of the deltas of the term it visits: the table is blank before every chunk and after it, so no
delta is left for the documents of another term.
-/

namespace Cohort.Counters

variable {m m' : Counters} {numDocs : Nat} {g : Grouping}

/-! ### By term -/

theorem foldlM_addToAll? {n : Nat} (hn : 0 < n) (delta : Int) (docs : List Nat) (m : Counters) :
    (chunks n docs).foldlM (addToAll? delta) m = m.addAll? (docs.map (·, delta)) := by
  rw [addAll?, List.foldlM_map]
  exact foldlM_chunks hn (fun (m : Counters) doc => m.add? doc delta) docs m

/-- The additions to the documents of every term that the field holds. -/
def listAdditions {τ : Type} [LinearOrder τ] (postings : Postings τ) (terms : List (τ × Int)) :
    List (Nat × Int) :=
  (visitedLists postings terms).flatMap fun v => v.1.map (·, v.2)

theorem visitTerms?_addToAll? {τ : Type} [LinearOrder τ] {n : Nat} (hn : 0 < n)
    (postings : Postings τ) (terms : List (τ × Int)) (m : Counters) :
    visitTerms? n postings terms addToAll? m = m.addAll? (listAdditions postings terms) := by
  rw [visitTerms?_eq, listAdditions, addAll?_flatMap]
  exact foldlM_ext (fun v _ m => foldlM_addToAll? hn v.2 v.1 m) m

/-- The additions for the conditions on one field. -/
def fieldAdditions (shard : Shard) (entries : List (Condition × Int)) (field : String) :
    List (Nat × Int) :=
  listAdditions (shard.stringPostings field) (termsOf Term.str? field entries) ++
    listAdditions (shard.intPostings field) (termsOf Term.int? field entries)

def termAdditions (shard : Shard) (conditions : List Condition) (deltas : List Int) :
    List (Nat × Int) :=
  (Regroup.distinctSorted (conditions.map (·.field))).flatMap
    (fieldAdditions shard (conditions.zip deltas))

theorem addByTerm?_eq {feed : Feed} (hchunk : 0 < feed.chunk) (m : Counters)
    (conditions : List Condition) (deltas : List Int) :
    m.addByTerm? feed conditions deltas =
      m.addAll? (termAdditions feed.shard conditions deltas) := by
  rw [termAdditions, addAll?_flatMap]
  refine foldlM_ext (fun field _ m => ?_) m
  rw [fieldAdditions, addAll?_append]
  show ((visitTerms? _ _ _ _ _).bind fun m => _) = _
  rw [visitTerms?_addToAll? hchunk]
  simp only [visitTerms?_addToAll? hchunk]

theorem lt_of_mem_listAdditions {τ : Type} [LinearOrder τ] {postings : Postings τ}
    (hp : postings.Ascending numDocs) {terms : List (τ × Int)} {a : Nat × Int}
    (ha : a ∈ listAdditions postings terms) : a.1 < numDocs := by
  obtain ⟨v, hv, ha⟩ := List.mem_flatMap.mp ha
  obtain ⟨d, hd, rfl⟩ := List.mem_map.mp ha
  obtain ⟨term, -, hlist⟩ := exists_of_mem_visitedLists hp hv
  exact hp.docs_lt _ hlist d hd

theorem exists_addByTerm? {feed : Feed} (hs : feed.shard.Ascending) (hchunk : 0 < feed.chunk)
    (h : m.size = feed.numDocs) (conditions : List Condition) (deltas : List Int) :
    ∃ m', m.addByTerm? feed conditions deltas = some m' := by
  rw [addByTerm?_eq hchunk]
  refine exists_addAll? fun a ha => ?_
  obtain ⟨field, -, ha⟩ := List.mem_flatMap.mp ha
  rw [h]
  rcases List.mem_append.mp ha with ha | ha
  · exact lt_of_mem_listAdditions (hs.stringPostings field) ha
  · exact lt_of_mem_listAdditions (hs.intPostings field) ha

/-! ### By term within a group -/

namespace DeltaTable

/-- What writes to groups that exist leave: what was written last. -/
theorem exists_writes (value : GroupDelta → Option Int) {deltas : List GroupDelta} {t : DeltaTable}
    (h : ∀ e ∈ deltas, e.group < t.size) :
    ∃ t', deltas.foldlM (fun t e => t.set? e.group (value e)) t = some t' ∧ t'.size = t.size ∧
      ∀ x, t'[x]? = t[x]?.map fun old =>
        (((deltas.filter (·.group = x)).getLast?).map value).getD old := by
  induction deltas generalizing t with
  | nil => exact ⟨t, rfl, rfl, fun x => Option.map_id'.symm⟩
  | cons e deltas ih =>
    obtain ⟨he, hrest⟩ := List.forall_mem_cons.mp h
    have hset : t.set? e.group (value e) = some (t.setIfInBounds e.group (value e)) := if_pos he
    have hsize : (t.setIfInBounds e.group (value e)).size = t.size := Array.size_setIfInBounds
    obtain ⟨t', ht', hsize', hget⟩ := ih fun f hf => hsize.symm ▸ hrest f hf
    refine ⟨t', by rw [List.foldlM_cons, hset]; exact ht', hsize'.trans hsize, fun x => ?_⟩
    rw [hget, Array.getElem?_setIfInBounds, List.filter_cons]
    by_cases hx : e.group = x
    · subst hx
      simp [he, List.getLast?_cons]
    · simp [hx]

end DeltaTable

/-- The last delta that is listed for a group. -/
def lastOf? (deltas : List GroupDelta) (group : Nat) : Option Int :=
  ((deltas.filter (·.group = group)).getLast?).map (·.delta)

/-- A blank table holds the last delta of each group after it was filled, and it is blank again
after it was cleared. -/
theorem exists_fill {deltas : List GroupDelta} {n : Nat} (h : ∀ e ∈ deltas, e.group < n) :
    ∃ t, (DeltaTable.blank n).fill? deltas = some t ∧
      (∀ x < n, t[x]? = some (lastOf? deltas x)) ∧ t.clear? deltas = some (DeltaTable.blank n) := by
  have hblank : (DeltaTable.blank n).size = n := Array.size_replicate
  obtain ⟨t, ht, hsize, hget⟩ := DeltaTable.exists_writes (fun e => some e.delta)
    (t := DeltaTable.blank n) fun e he => hblank.symm ▸ h e he
  obtain ⟨t', ht', hsize', hget'⟩ := DeltaTable.exists_writes (fun _ => none) (t := t)
    fun e he => hsize.symm ▸ hblank.symm ▸ h e he
  have hfill : ∀ x < n, t[x]? = some (lastOf? deltas x) := by
    intro x hx
    rw [hget, DeltaTable.blank, Array.getElem?_replicate, if_pos hx, Option.map_some, lastOf?]
    cases (deltas.filter (·.group = x)).getLast? <;> rfl
  refine ⟨t, ht, hfill, ht'.trans (congrArg some ?_)⟩
  refine Array.ext_getElem? fun x => ?_
  rw [hget', DeltaTable.blank, Array.getElem?_replicate]
  by_cases hx : x < n
  · rw [if_pos hx, hfill x hx, Option.map_some, lastOf?]
    cases (deltas.filter (·.group = x)).getLast? <;> rfl
  · have hend : t[x]? = none := Array.getElem?_eq_none (by omega)
    rw [if_neg hx, hend, Option.map_none]

/-- A chunk of documents is read by group, and the table is left blank. -/
theorem addByTable?_eq {deltas : List GroupDelta} {docs : List Nat}
    (hg : ∀ d x, g.get? d = some x → x < g.numGroups)
    (hdeltas : ∀ e ∈ deltas, e.group < g.numGroups) (hdocs : ∀ d ∈ docs, d < g.len) (m : Counters) :
    addByTable? g deltas (m, DeltaTable.blank g.numGroups) docs =
      (m.addAll? (groupAdditions g (lastOf? deltas) docs)).map
        (·, DeltaTable.blank g.numGroups) := by
  obtain ⟨t, hfill, hget, hclear⟩ := exists_fill hdeltas
  have hread : ∀ d x, g.get? d = some x → ∀ m : Counters,
      (t[x]?.bind fun delta? => addIf? delta? m d) = addIf? (lastOf? deltas x) m d := by
    intro d x hx m
    rw [hget x (hg d x hx), Option.bind_some]
  rw [← foldlM_groupsOf? hdocs hread]
  show ((DeltaTable.blank g.numGroups).fill? deltas).bind _ = _
  rw [hfill, Option.bind_some]
  cases g.groupsOf? docs with
  | none => rfl
  | some groups =>
    show (((docs.zip groups).foldlM (fun m p => t[p.2]?.bind fun delta? => addIf? delta? m p.1)
      m).bind fun m => (t.clear? deltas).bind fun t => some (m, t)) = _
    rw [hclear, Option.bind_some]
    cases (docs.zip groups).foldlM (fun m p => t[p.2]?.bind fun delta? => addIf? delta? m p.1) m <;>
      rfl

/-- The additions to the documents of every term that the field holds, by their groups. -/
def tableAdditions {τ : Type} [LinearOrder τ] (g : Grouping) (postings : Postings τ)
    (terms : List (τ × GroupDelta)) : List (Nat × Int) :=
  (visitedLists postings (byTerm terms)).flatMap fun v => groupAdditions g (lastOf? v.2) v.1

theorem mem_of_mem_byTerm {τ : Type} [LinearOrder τ] {terms : List (τ × GroupDelta)} {t : τ}
    {deltas : List GroupDelta} (h : (t, deltas) ∈ byTerm terms) {e : GroupDelta} (he : e ∈ deltas) :
    (t, e) ∈ terms := by
  obtain ⟨u, -, heq⟩ := List.mem_map.mp h
  cases heq
  obtain ⟨f, hf, rfl⟩ := List.mem_map.mp he
  obtain ⟨hmem, heq⟩ := List.mem_filter.mp hf
  rwa [← of_decide_eq_true heq]

theorem mem_of_mem_termsOf {τ π : Type} {read : Term → Option τ} {field : String}
    {entries : List (Condition × π)} {t : τ} {payload : π}
    (h : (t, payload) ∈ termsOf read field entries) :
    ∃ c, (c, payload) ∈ entries ∧ c.field = field ∧ read c.term = some t := by
  obtain ⟨e, he, hread⟩ := List.mem_filterMap.mp h
  obtain ⟨he, hfield⟩ := List.mem_filter.mp he
  obtain ⟨u, hu, heq⟩ := Option.map_eq_some_iff.mp hread
  cases heq
  exact ⟨e.1, he, beq_iff_eq.mp hfield, hu⟩

/-- The update of a field by group needs a table that is blank, and leaves one. -/
theorem addByFieldTable?_eq {τ : Type} [LinearOrder τ] {postings : Postings τ}
    (hg : g.WellFormed numDocs) (hp : postings.Ascending numDocs) {n : Nat} (hn : 0 < n)
    {terms : List (τ × GroupDelta)} (hterms : ∀ e ∈ terms, e.2.group < g.numGroups) (m : Counters) :
    addByFieldTable? n g postings terms (m, DeltaTable.blank g.numGroups) =
      (m.addAll? (tableAdditions g postings terms)).map (·, DeltaTable.blank g.numGroups) := by
  rw [addByFieldTable?, visitTerms?_eq, tableAdditions, addAll?_flatMap]
  refine foldlM_along (fun v hv m => ?_) m
  obtain ⟨term, hterm, hlist⟩ := exists_of_mem_visitedLists hp hv
  have hdeltas : ∀ e ∈ v.2, e.group < g.numGroups :=
    fun e he => hterms _ (mem_of_mem_byTerm hterm he)
  rw [← flatMap_groupAdditions_chunks hn, addAll?_flatMap]
  refine foldlM_along (fun docs hdocs m => ?_) m
  refine addByTable?_eq hg.lt_numGroups hdeltas (fun d hd => ?_) m
  rw [hg.len_eq]
  exact hp.docs_lt _ hlist d (mem_of_mem_chunks hdocs hd)

/-- The additions for some fields of one type. -/
def tablesAdditions {τ : Type} [LinearOrder τ] (g : Grouping) (postings : String → Postings τ)
    (read : Term → Option τ) (entries : List (Condition × GroupDelta)) (fields : List String) :
    List (Nat × Int) :=
  fields.flatMap fun field => tableAdditions g (postings field) (termsOf read field entries)

theorem foldlM_addByFieldTable? {τ : Type} [LinearOrder τ] {postings : String → Postings τ}
    (hg : g.WellFormed numDocs) (hp : ∀ field, (postings field).Ascending numDocs) {n : Nat}
    (hn : 0 < n) (read : Term → Option τ) {entries : List (Condition × GroupDelta)}
    (hentries : ∀ e ∈ entries, e.2.group < g.numGroups) (fields : List String) (m : Counters) :
    fields.foldlM (fun s field => addByFieldTable? n g (postings field)
      (termsOf read field entries) s) (m, DeltaTable.blank g.numGroups) =
      (m.addAll? (tablesAdditions g postings read entries fields)).map
        (·, DeltaTable.blank g.numGroups) := by
  rw [tablesAdditions, addAll?_flatMap]
  refine foldlM_along (fun field _ m => addByFieldTable?_eq hg (hp field) hn (fun e he => ?_) m) m
  obtain ⟨c, hc, -⟩ := mem_of_mem_termsOf he
  exact hentries _ hc

/-- The additions for all fields, those of integers before those of strings. -/
def groupTermAdditions (shard : Shard) (g : Grouping) (entries : List (Condition × GroupDelta)) :
    List (Nat × Int) :=
  tablesAdditions g shard.intPostings Term.int? entries
      (Regroup.fieldNames true (entries.map (·.1))) ++
    tablesAdditions g shard.stringPostings Term.str? entries
      (Regroup.fieldNames false (entries.map (·.1)))

theorem addByGroupAndTerm?_eq {feed : Feed} (hs : feed.shard.Ascending) (hchunk : 0 < feed.chunk)
    (hg : g.WellFormed feed.numDocs) {entries : List (Condition × GroupDelta)}
    (hentries : ∀ e ∈ entries, e.2.group < g.numGroups) (m : Counters) :
    m.addByGroupAndTerm? feed g entries =
      m.addAll? (groupTermAdditions feed.shard g entries) := by
  rw [groupTermAdditions, addAll?_append]
  unfold addByGroupAndTerm?
  simp only [foldlM_addByFieldTable? hg hs.intPostings hchunk _ hentries]
  cases m.addAll? (tablesAdditions g feed.shard.intPostings Term.int? entries _) with
  | none => rfl
  | some t =>
    simp only [Option.map_some, Option.bind_some, Option.bind_eq_bind,
      foldlM_addByFieldTable? hg hs.stringPostings hchunk _ hentries]
    cases t.addAll? (tablesAdditions g feed.shard.stringPostings Term.str? entries _) <;> rfl

theorem lt_of_mem_tablesAdditions {τ : Type} [LinearOrder τ] {postings : String → Postings τ}
    (hp : ∀ field, (postings field).Ascending numDocs) {read : Term → Option τ}
    {entries : List (Condition × GroupDelta)} {fields : List String} {a : Nat × Int}
    (ha : a ∈ tablesAdditions g postings read entries fields) : a.1 < numDocs := by
  obtain ⟨field, -, ha⟩ := List.mem_flatMap.mp ha
  obtain ⟨v, hv, ha⟩ := List.mem_flatMap.mp ha
  obtain ⟨term, -, hlist⟩ := exists_of_mem_visitedLists (hp field) hv
  exact (hp field).docs_lt _ hlist _ (mem_of_mem_groupAdditions ha)

theorem exists_addByGroupAndTerm? {feed : Feed} (hs : feed.shard.Ascending)
    (hchunk : 0 < feed.chunk) (hg : g.WellFormed feed.numDocs) (h : m.size = feed.numDocs)
    {entries : List (Condition × GroupDelta)} (hentries : ∀ e ∈ entries, e.2.group < g.numGroups) :
    ∃ m', m.addByGroupAndTerm? feed g entries = some m' := by
  rw [addByGroupAndTerm?_eq hs hchunk hg hentries]
  refine exists_addAll? fun a ha => ?_
  rw [h]
  rcases List.mem_append.mp ha with ha | ha
  · exact lt_of_mem_tablesAdditions hs.intPostings ha
  · exact lt_of_mem_tablesAdditions hs.stringPostings ha

theorem lt_of_mem_liveEntries {n : Nat} {groups : List Nat} {conditions : List Condition}
    {deltas : List Int} : ∀ e ∈ liveEntries n groups conditions deltas, e.2.group < n :=
  fun _ he => of_decide_eq_true (List.mem_filter.mp he).2

end Cohort.Counters
