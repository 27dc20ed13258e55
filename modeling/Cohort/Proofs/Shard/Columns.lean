import Mathlib
import Cohort.Proofs.Shard.Cursor
import Cohort.Proofs.Shard.Fields
import Cohort.Proofs.Shard.Values
import Cohort.Proofs.Utf8

/-!
# Columns — a shard says of every document what its columns say

Where all columns are as long as the shard has documents, `toShard` gives just their indexes; if one
is not, it is refused. A document holds the terms that the entry of its column lists, whatever their
order and however often.
-/

namespace Cohort

/-! ### Building -/

namespace ShardColumns

section Building

variable {τ : Type} [LinearOrder τ] {numDocs : Nat} {put : FieldMap τ → Shard}
  {register : Shard → String → Shard} {add? : String → Shard → Nat → τ → Option Shard}
  {m : FieldMap τ}

/-- Of a shard of `numDocs` documents whose fields of one kind are `m`, which is `put m`, the fields
can be registered and values recorded in them. -/
structure Fills (numDocs : Nat) (put : FieldMap τ → Shard) (register : Shard → String → Shard)
    (add? : String → Shard → Nat → τ → Option Shard) : Prop where
  register_eq : ∀ m field, register (put m) field = put (m.alter field id)
  add?_eq : ∀ m field doc v, doc < numDocs →
    add? field (put m) doc v = some (put (m.alter field (·.add v doc)))

theorem Fills.foldlM_add? (h : Fills numDocs put register add?) (field : String)
    {values : List (Nat × τ)} (hlt : ∀ v ∈ values, v.1 < numDocs) :
    values.foldlM (fun s (doc, v) => add? field s doc v) (put m) =
      some (put (m.record field values)) := by
  induction values generalizing m with
  | nil => rfl
  | cons v values ih =>
    obtain ⟨hv, hrest⟩ := List.forall_mem_cons.mp hlt
    rw [List.foldlM_cons]
    show (add? field (put m) v.1 v.2 >>= _) = _
    rw [h.add?_eq m field v.1 v.2 hv]
    exact ih hrest

theorem Fills.addColumn_eq (h : Fills numDocs put register add?) {c : String × Column τ}
    (hlen : c.2.length = numDocs) :
    addColumn numDocs (add? c.1) (register (put m) c.1) c.1 c.2 = .ok (put (m.addColumn c)) := by
  have hlt : ∀ v ∈ Column.values c.2, v.1 < numDocs := by
    rintro ⟨doc, v⟩ hv
    obtain ⟨e, he, -⟩ := Column.mem_values.mp hv
    exact hlen ▸ (List.getElem?_eq_some_iff.mp he).1
  have hvalues := h.foldlM_add? (m := m.alter c.1 id) c.1 hlt
  unfold addColumn
  rw [if_pos hlen, h.register_eq]
  split
  · rename_i s hs
    cases hs.symm.trans hvalues
    rfl
  · rename_i hs
    cases hs.symm.trans hvalues

/-- Columns of the right length are indexed. -/
theorem Fills.foldlM_addColumn (h : Fills numDocs put register add?)
    {columns : List (String × Column τ)} (hlen : ∀ c ∈ columns, c.2.length = numDocs) :
    columns.foldlM (fun s (field, column) =>
      addColumn numDocs (add? field) (register s field) field column) (put m) =
        .ok (put (columns.foldl FieldMap.addColumn m)) := by
  induction columns generalizing m with
  | nil => rfl
  | cons c columns ih =>
    obtain ⟨hc, hrest⟩ := List.forall_mem_cons.mp hlen
    rw [List.foldlM_cons]
    show (addColumn numDocs (add? c.1) (register (put m) c.1) c.1 c.2 >>= _) = _
    rw [h.addColumn_eq hc]
    exact ih hrest

/-- Those before the first column of another length are of no account. -/
theorem Fills.foldlM_addColumn_refused (h : Fills numDocs put register add?)
    {columns : List (String × Column τ)} (hlen : ∃ c ∈ columns, c.2.length ≠ numDocs) :
    ∃ e, columns.foldlM (fun s (field, column) =>
      addColumn numDocs (add? field) (register s field) field column) (put m) =
        .error (.refused e) := by
  induction columns generalizing m with
  | nil =>
    obtain ⟨c, hc, -⟩ := hlen
    cases hc
  | cons c columns ih =>
    simp only [List.foldlM_cons]
    show ∃ e, (addColumn numDocs (add? c.1) (register (put m) c.1) c.1 c.2 >>= _) = _
    by_cases hc : c.2.length = numDocs
    · rw [h.addColumn_eq hc]
      refine ih ?_
      obtain ⟨c', hc', hne⟩ := hlen
      rcases List.mem_cons.mp hc' with rfl | hc'
      · exact absurd hc hne
      · exact ⟨c', hc', hne⟩
    · unfold addColumn
      rw [if_neg hc]
      exact ⟨_, rfl⟩

end Building

variable {d : ShardColumns} {s : Shard}

theorem fills_ints (numDocs : Nat) (strings : FieldMap String) :
    Fills numDocs (fun m => ⟨numDocs, m, strings⟩) Shard.withIntField
      (fun field s => s.addInt? field) :=
  ⟨fun _ _ => rfl, fun _ _ _ _ hd => if_pos hd⟩

theorem fills_strings (numDocs : Nat) (ints : FieldMap Int) :
    Fills numDocs (fun m => ⟨numDocs, ints, m⟩) Shard.withStringField
      (fun field s => s.addString? field) :=
  ⟨fun _ _ => rfl, fun _ _ _ _ hd => if_pos hd⟩

/-- All columns are as long as the shard has documents. -/
def Fitting (d : ShardColumns) : Prop :=
  (∀ c ∈ d.ints, c.2.length = d.numDocs) ∧ ∀ c ∈ d.strings, c.2.length = d.numDocs

theorem toShard_eq (hn : d.numDocs ≤ maxId) (h : d.Fitting) :
    d.toShard = .ok ⟨d.numDocs, .ofColumns d.ints, .ofColumns d.strings⟩ := by
  have hints := (fills_ints d.numDocs []).foldlM_addColumn (m := []) h.1
  have hstrings := (fills_strings d.numDocs (.ofColumns d.ints)).foldlM_addColumn (m := []) h.2
  unfold toShard Shard.empty?
  rw [if_pos hn]
  show (_ >>= _ : Except Failure Shard) = _
  rw [hints]
  exact hstrings

theorem toShard_refused (hn : d.numDocs ≤ maxId) (h : ¬ d.Fitting) :
    ∃ e, d.toShard = .error (.refused e) := by
  unfold toShard Shard.empty?
  rw [if_pos hn]
  show ∃ e, (_ >>= _ : Except Failure Shard) = _
  by_cases hints : ∀ c ∈ d.ints, c.2.length = d.numDocs
  · have hstrings : ∃ c ∈ d.strings, c.2.length ≠ d.numDocs := by
      by_contra hnone
      exact h ⟨hints, fun c hc => by_contra fun hne => hnone ⟨c, hc, hne⟩⟩
    rw [(fills_ints d.numDocs []).foldlM_addColumn (m := []) hints]
    exact (fills_strings d.numDocs (.ofColumns d.ints)).foldlM_addColumn_refused hstrings
  · have hints : ∃ c ∈ d.ints, c.2.length ≠ d.numDocs := by
      by_contra hnone
      exact hints fun c hc => by_contra fun hne => hnone ⟨c, hc, hne⟩
    obtain ⟨e, he⟩ := (fills_ints d.numDocs []).foldlM_addColumn_refused (m := []) hints
    exact ⟨e, by rw [he]; rfl⟩

theorem toShard_ok (h : d.toShard = .ok s) :
    d.numDocs ≤ maxId ∧ d.Fitting ∧ s = ⟨d.numDocs, .ofColumns d.ints, .ofColumns d.strings⟩ := by
  have hn : d.numDocs ≤ maxId := by
    by_contra hbig
    unfold toShard Shard.empty? at h
    rw [if_neg hbig] at h
    cases h
  by_cases hfit : d.Fitting
  · rw [toShard_eq hn hfit] at h
    cases h
    exact ⟨hn, hfit, rfl⟩
  · obtain ⟨e, he⟩ := toShard_refused hn hfit
    rw [he] at h
    cases h

/-! ### What the columns hold -/

/-- The values that the column `field` lists for a document, if there is such a column. -/
def held {τ : Type} (columns : List (String × Column τ)) (field : String) (doc : Nat) : List τ :=
  ((columns.lookup field).bind (·[doc]?)).elim [] Entry.toList

/-- No two columns of a kind have one name. -/
structure Keyed (d : ShardColumns) : Prop where
  ints : (d.ints.map (·.1)).Nodup
  strings : (d.strings.map (·.1)).Nodup

section Held

variable {τ : Type} {columns : List (String × Column τ)} {field : String}

theorem mem_held {doc : Nat} {v : τ} (hk : (columns.map (·.1)).Nodup) :
    v ∈ held columns field doc ↔ ∃ c ∈ columns, field = c.1 ∧ (doc, v) ∈ Column.values c.2 := by
  unfold held
  constructor
  · intro hv
    cases hl : columns.lookup field with
    | none =>
      rw [hl] at hv
      cases hv
    | some column =>
      rw [hl, Option.bind_some] at hv
      refine ⟨_, (lookup_eq_some_iff_mem hk).mp hl, rfl, Column.mem_values.mpr ?_⟩
      cases he : column[doc]? with
      | none =>
        rw [he] at hv
        cases hv
      | some e =>
        rw [he] at hv
        exact ⟨e, rfl, hv⟩
  · rintro ⟨⟨_, column⟩, hc, rfl, hv⟩
    obtain ⟨e, he, hv⟩ := Column.mem_values.mp hv
    rw [(lookup_eq_some_iff_mem hk).mpr hc, Option.bind_some, he]
    exact hv

end Held

end ShardColumns

/-- The postings of a field, read by term: a walk over them from any term on, and the documents of
each term, drained through a buffer of any size. -/
structure Postings.Inverts {τ : Type} [LinearOrder τ] (p : Postings τ) (numDocs : Nat)
    (held : Nat → List τ) : Prop where
  terms : p.entries.Pairwise fun a b => a.1 < b.1
  mem_terms : ∀ t, t ∈ p.entries.map (·.1) ↔ ∃ doc < numDocs, t ∈ held doc
  docs : ∀ e ∈ p.entries, e.2.Pairwise (· < ·) ∧ e.2 ≠ [] ∧ ∀ doc ∈ e.2, doc < numDocs
  visits : ∀ (position : Nat) (t : τ),
    ((Cursor.mk p position).reset t).visits = p.entries.filter fun e => t ≤ e.1
  streamed : ∀ e ∈ p.entries, ∀ n, 0 < n →
    (chunks n e.2).flatten = (List.range numDocs).filter fun doc => e.1 ∈ held doc

/-- The numeric view of a field: the largest value of each document or 0, and the bounds of all of
them. -/
structure ValueTable.Reads (t : ValueTable) (numDocs : Nat) (held : Nat → List Int) : Prop where
  value?_eq : ∀ doc < numDocs, t.value? doc = some ((held doc).max?.getD 0)
  low_le : ∀ doc < numDocs, t.low ≤ (held doc).max?.getD 0
  le_high : ∀ doc < numDocs, (held doc).max?.getD 0 ≤ t.high
  low_attained : 0 < numDocs → ∃ doc < numDocs, t.low = (held doc).max?.getD 0
  high_attained : 0 < numDocs → ∃ doc < numDocs, t.high = (held doc).max?.getD 0

open ShardColumns (held) in
/-- A shard says of every document what the columns say. -/
structure Shard.Mirrors (s : Shard) (d : ShardColumns) : Prop where
  intValues_eq : ∀ field doc,
    s.intValues field doc = (held d.ints field doc).toFinset.sort (· ≤ ·)
  stringValues_eq : ∀ field doc,
    s.stringValues field doc = (held d.strings field doc).toFinset.sort (· ≤ ·)
  ints : ∀ field, (s.intPostings field).Inverts d.numDocs (held d.ints field)
  strings : ∀ field, (s.stringPostings field).Inverts d.numDocs (held d.strings field)
  isSome_valueTable? : ∀ field, (s.valueTable? field).isSome ↔ field ∈ d.ints.map (·.1)
  valueTable?_reads : ∀ field t, s.valueTable? field = some t →
    t.Reads d.numDocs (held d.ints field)
  intDocFreq_eq : ∀ field,
    s.intDocFreq field = ∑ doc ∈ Finset.range d.numDocs, (held d.ints field doc).toFinset.card
  stringDocFreq_eq : ∀ field,
    s.stringDocFreq field = ∑ doc ∈ Finset.range d.numDocs, (held d.strings field doc).toFinset.card

/-! ### Postings of columns -/

namespace Postings

variable {τ : Type} [LinearOrder τ] {p : Postings τ} {numDocs : Nat} {held : Nat → List τ}

theorem Ascending.inverts (hp : p.Ascending numDocs)
    (h : ∀ doc v, v ∈ p.valuesOf doc ↔ v ∈ held doc) : p.Inverts numDocs held := by
  refine ⟨hp.terms, fun t => ?_, fun e he => ⟨hp.docs e he, hp.docs_ne e he, hp.docs_lt e he⟩,
    Cursor.visits_reset hp, fun e he n hn => ?_⟩
  · constructor
    · intro ht
      obtain ⟨e, he, rfl⟩ := List.mem_map.mp ht
      obtain ⟨doc, hdoc⟩ := List.exists_mem_of_ne_nil _ (hp.docs_ne e he)
      have hv : e.1 ∈ p.valuesOf doc := mem_valuesOf.mpr ⟨e.2, he, hdoc⟩
      exact ⟨doc, hp.docs_lt e he doc hdoc, (h doc e.1).mp hv⟩
    · rintro ⟨doc, -, ht⟩
      obtain ⟨docs, he, -⟩ := mem_valuesOf.mp ((h doc t).mpr ht)
      exact List.mem_map_of_mem he
  · rw [flatten_chunks hn]
    refine (hp.docs_eq_filter he).trans (List.filter_congr fun doc _ => ?_)
    rw [decide_eq_decide]
    exact h doc e.1

theorem Ascending.totalDocFreq_eq_card (hp : p.Ascending numDocs)
    (h : ∀ doc v, v ∈ p.valuesOf doc ↔ v ∈ held doc) :
    p.totalDocFreq = ∑ doc ∈ Finset.range numDocs, (held doc).toFinset.card := by
  rw [hp.totalDocFreq_eq]
  refine Finset.sum_congr rfl fun doc _ => ?_
  rw [hp.valuesOf_eq_sort (h doc), Finset.length_sort]

end Postings

theorem Shard.Ascending.reads {s : Shard} (hs : s.Ascending) {field : String} {t : ValueTable}
    (ht : s.valueTable? field = some t) {held : Nat → List Int}
    (h : ∀ doc v, v ∈ s.intValues field doc ↔ v ∈ held doc) : t.Reads s.numDocs held := by
  obtain ⟨p, hp, rfl⟩ := Option.map_eq_some_iff.mp ht
  have hpostings : s.intPostings field = p := by
    show (s.ints.lookup field).getD .empty = p
    rw [hp]
    rfl
  generalize hvalues : p.entries.foldl (fun values (e : Int × List Nat) =>
    e.2.foldl (fun vs doc => vs.setIfInBounds doc e.1) values)
      (Array.replicate s.numDocs 0) = values
  show (ValueTable.dense values).Reads s.numDocs held
  -- the terms ascend, so the last list that writes a document has its largest value
  have hlast : ∀ doc, (p.valuesOf doc).getLast? = (held doc).max? := by
    intro doc
    rw [← hpostings]
    exact Postings.getLast?_eq_max? ((hs.intPostings field).pairwise_valuesOf doc) (h doc)
  have hvalue : ∀ doc, values[doc]? =
      if doc < s.numDocs then some ((held doc).max?.getD 0) else none := by
    intro doc
    rw [← hvalues, Postings.getElem?_writeAll, Array.getElem?_replicate, ← hlast]
    split_ifs <;> rfl
  have hread : ∀ doc < s.numDocs,
      (ValueTable.dense values).value? doc = some ((held doc).max?.getD 0) :=
    fun doc hdoc => (hvalue doc).trans (if_pos hdoc)
  have hfound : ∀ v, (∃ doc < values.size, (ValueTable.dense values).value? doc = some v) →
      ∃ doc < s.numDocs, v = (held doc).max?.getD 0 := by
    rintro v ⟨doc, -, hv⟩
    have hv : values[doc]? = some v := hv
    rw [hvalue] at hv
    split_ifs at hv with hdoc
    exact ⟨doc, hdoc, (Option.some_inj.mp hv).symm⟩
  have hsize : 0 < s.numDocs → 0 < values.size := fun hpos =>
    (Array.getElem?_eq_some_iff.mp (hread 0 hpos)).1
  exact ⟨hread, fun doc hdoc => (ValueTable.bounds_of_value? (hread doc hdoc)).1,
    fun doc hdoc => (ValueTable.bounds_of_value? (hread doc hdoc)).2,
    fun hpos => hfound _ (ValueTable.bounds_attained (hsize hpos)).1,
    fun hpos => hfound _ (ValueTable.bounds_attained (hsize hpos)).2⟩

namespace ShardColumns

variable {d : ShardColumns} {s : Shard}

/-- Every shard that is built from columns mirrors them. -/
theorem Keyed.mirrors (hk : d.Keyed) (h : d.toShard = .ok s) : s.Mirrors d := by
  obtain ⟨-, -, hshard⟩ := toShard_ok h
  have hs := (Shard.built_of_toShard h).ascending
  have hnum : s.numDocs = d.numDocs := by rw [hshard]
  have hints : ∀ field, (s.intPostings field).Ascending d.numDocs :=
    fun field => hnum ▸ hs.intPostings field
  have hstrings : ∀ field, (s.stringPostings field).Ascending d.numDocs :=
    fun field => hnum ▸ hs.stringPostings field
  have hint : ∀ field doc v, v ∈ s.intValues field doc ↔ v ∈ held d.ints field doc := by
    intro field doc v
    rw [mem_held hk.ints, hshard]
    exact FieldMap.mem_valuesOf_ofColumns
  have hstring : ∀ field doc v, v ∈ s.stringValues field doc ↔ v ∈ held d.strings field doc := by
    intro field doc v
    rw [mem_held hk.strings, hshard]
    exact FieldMap.mem_valuesOf_ofColumns
  exact {
    intValues_eq := fun field doc => (hints field).valuesOf_eq_sort (hint field doc)
    stringValues_eq := fun field doc => (hstrings field).valuesOf_eq_sort (hstring field doc)
    ints := fun field => (hints field).inverts (hint field)
    strings := fun field => (hstrings field).inverts (hstring field)
    isSome_valueTable? := fun field => by
      unfold Shard.valueTable?
      rw [Option.isSome_map, hshard]
      exact FieldMap.isSome_lookup_ofColumns
    valueTable?_reads := fun field t ht => hnum ▸ hs.reads ht (hint field)
    intDocFreq_eq := fun field => (hints field).totalDocFreq_eq_card (hint field)
    stringDocFreq_eq := fun field => (hstrings field).totalDocFreq_eq_card (hstring field) }

/-- Columns are taken over as they are. A shard that is built from them mirrors them, strings
ordered by their bytes. For as many documents as have ids, one is built unless some column is of the
wrong length, and then they are refused. -/
theorem Keyed.toShard_inverts (hk : d.Keyed) :
    (∀ s, d.toShard = .ok s → s.Mirrors d) ∧
    (∀ a b : String, a < b ↔ utf8Bytes a < utf8Bytes b) ∧
    (d.numDocs < 2 ^ 32 →
      ((∃ e, d.toShard = .error (.refused e)) ↔
        (∃ c ∈ d.ints, c.2.length ≠ d.numDocs) ∨ ∃ c ∈ d.strings, c.2.length ≠ d.numDocs) ∧
      d.toShard ≠ .error .broken) := by
  refine ⟨fun s h => hk.mirrors h, fun _ _ => utf8Bytes_lt_iff.symm, fun hn => ?_⟩
  have hn : d.numDocs ≤ maxId := Nat.le_of_lt_succ hn
  have hfit : ¬ d.Fitting ↔
      (∃ c ∈ d.ints, c.2.length ≠ d.numDocs) ∨ ∃ c ∈ d.strings, c.2.length ≠ d.numDocs := by
    unfold Fitting
    rw [not_and_or]
    simp only [not_forall, exists_prop]
  rw [← hfit]
  by_cases h : d.Fitting
  · have hok := toShard_eq hn h
    refine ⟨⟨fun ⟨e, he⟩ => ?_, fun hnot => absurd h hnot⟩, fun hbroken => ?_⟩
    · rw [hok] at he
      cases he
    · rw [hok] at hbroken
      cases hbroken
  · obtain ⟨e, he⟩ := toShard_refused hn h
    refine ⟨⟨fun _ => h, fun _ => ⟨e, he⟩⟩, fun hbroken => ?_⟩
    rw [he] at hbroken
    cases hbroken

/-- Columns with missing, scalar and repeated values, and a field of each kind with one name. -/
def mixed : ShardColumns :=
  ⟨3, [("age", [.many [20, 10, 20], .missing, .one 10])],
    [("age", [.one "b", .many [], .many ["é", "b", "b"]])]⟩

def mixedShard : Shard :=
  ⟨3, [("age", ⟨[(10, [0, 2]), (20, [0])]⟩)], [("age", ⟨[("b", [0, 2]), ("é", [2])]⟩)]⟩

theorem toShard_mixed : mixed.toShard = .ok mixedShard := by cbv

/-- With its column of integers a value short, it is refused. -/
theorem Keyed.toShard_inverts_mixed : mixedShard.Mirrors mixed ∧
    mixedShard.intValues "age" 0 = [20, 10, 20].toFinset.sort (· ≤ ·) ∧
    ∃ e, toShard { mixed with ints := [("age", [.one 10, .missing])] } = .error (.refused e) := by
  have hmixed : mixed.Keyed := ⟨by decide, by decide⟩
  have hshort : Keyed { mixed with ints := [("age", [.one 10, .missing])] } :=
    ⟨by decide, by decide⟩
  have hmirrors := (Keyed.toShard_inverts hmixed).1 _ toShard_mixed
  refine ⟨hmirrors, hmirrors.intValues_eq "age" 0, ?_⟩
  exact ((Keyed.toShard_inverts hshort).2.2 (by decide)).1.mpr
    (.inl ⟨_, List.mem_singleton.mpr rfl, by decide⟩)

end ShardColumns

/-! ### Columns that are read -/

/-- Of several members with one name, one is kept. -/
theorem Json.nodup_map? {α : Type} {item? : Json → Option α} {j : Json}
    {members : List (String × α)} (h : j.map? item? = some members) :
    (members.map (·.1)).Nodup := by
  unfold Json.map? at h
  split at h
  · obtain ⟨decoded, -, hkept⟩ := Option.bind_eq_some_iff.mp h
    cases hkept
    clear h
    induction decoded with
    | nil => exact List.nodup_nil
    | cons m decoded ih =>
      rw [List.foldr_cons]
      split_ifs with hm
      · exact ih
      · refine List.nodup_cons.mpr ⟨fun hin => hm ?_, ih⟩
        obtain ⟨m', hm', heq⟩ := List.mem_map.mp hin
        exact List.any_eq_true.mpr ⟨m', hm', beq_iff_eq.mpr heq⟩
  · cases h

namespace ShardColumns

theorem nodup_columnsOfJson? {τ : Type} {value? : Json → Option τ} {j : Json}
    {columns : List (String × Column τ)} (h : columnsOfJson? value? j = some columns) :
    (columns.map (·.1)).Nodup := by
  obtain ⟨members, hmembers, rfl⟩ := Option.map_eq_some_iff.mp h
  exact ((List.mergeSort_perm members _).map (·.1)).nodup_iff.mpr (Json.nodup_map? hmembers)

/-- Columns that are read from a document have names of their own. -/
theorem keyed_of_ofJson? {j : Json} {d : ShardColumns} (h : ofJson? j = some d) : d.Keyed := by
  obtain ⟨r, -, h⟩ := Option.bind_eq_some_iff.mp h
  obtain ⟨numDocs, -, h⟩ := Option.bind_eq_some_iff.mp h
  obtain ⟨ints, hints, h⟩ := Option.bind_eq_some_iff.mp h
  obtain ⟨strings, hstrings, h⟩ := Option.bind_eq_some_iff.mp h
  cases h
  have hnames : ∀ {τ : Type} {name : String} {value? : Json → Option τ}
      {columns : List (String × Column τ)},
      r.getD? name (columnsOfJson? value?) [] = some columns → (columns.map (·.1)).Nodup := by
    intro τ name value? columns hr
    unfold Json.Record.getD? at hr
    split at hr
    · exact nodup_columnsOfJson? hr
    · cases hr
      exact List.nodup_nil
  exact ⟨hnames hints, hnames hstrings⟩

end ShardColumns

end Cohort
