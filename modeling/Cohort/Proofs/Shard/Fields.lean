import Mathlib
import Cohort.Proofs.Shard.Postings

/-!
# Fields — what an index of columns says

Altering one field of a `FieldMap` is seen in that field only, as names ascend. `FieldMap.ofColumns`
indexes columns value by value, and a document holds a term of a field if a column of that name says
so.
-/

namespace Cohort

/-! ### Fields -/

namespace FieldMap

variable {τ : Type} {m : FieldMap τ} {f : Postings τ → Postings τ} {name n : String}

/-- The names ascend strictly. -/
def Named (m : FieldMap τ) : Prop := m.Pairwise fun a b => a.1 < b.1

theorem lookup_cons (e : String × Postings τ) (m : FieldMap τ) (n : String) :
    List.lookup n (e :: m) = if n = e.1 then some e.2 else m.lookup n := by
  by_cases hn : n = e.1
  · rw [if_pos hn, hn]
    exact List.lookup_cons_self
  · rw [if_neg hn, List.lookup_cons, beq_eq_false_iff_ne.mpr hn]

/-- No name past the first is as small as what stands before them. -/
theorem lookup_eq_none (h : ∀ e ∈ m, n < e.1) : m.lookup n = none := by
  rw [List.lookup_eq_none_iff]
  intro e he
  exact bne_iff_ne.mpr (h e he).ne

theorem name_of_mem_alter {e : String × Postings τ} (he : e ∈ m.alter name f) :
    e.1 = name ∨ ∃ e' ∈ m, e'.1 = e.1 := by
  induction m with
  | nil => exact .inl (congrArg Prod.fst (List.mem_singleton.mp he))
  | cons g m ih =>
    unfold alter at he
    split_ifs at he with h1 h2
    · rcases List.mem_cons.mp he with rfl | he
      · exact .inl rfl
      · exact .inr ⟨e, he, rfl⟩
    · rcases List.mem_cons.mp he with rfl | he
      · exact .inl h2.symm
      · exact .inr ⟨e, List.mem_cons_of_mem _ he, rfl⟩
    · rcases List.mem_cons.mp he with rfl | he
      · exact .inr ⟨g, List.mem_cons_self, rfl⟩
      · refine (ih he).imp_right ?_
        rintro ⟨e', he', h⟩
        exact ⟨e', List.mem_cons_of_mem _ he', h⟩

theorem Named.alter (hm : m.Named) (name : String) (f : Postings τ → Postings τ) :
    (m.alter name f).Named := by
  induction m with
  | nil => exact List.pairwise_singleton _ _
  | cons g m ih =>
    obtain ⟨hg, hrest⟩ := List.pairwise_cons.mp hm
    unfold FieldMap.alter
    split_ifs with h1 h2
    · refine List.pairwise_cons.mpr ⟨fun e he => ?_, hm⟩
      rcases List.mem_cons.mp he with rfl | he
      · exact h1
      · exact lt_trans h1 (hg e he)
    · exact List.pairwise_cons.mpr ⟨hg, hrest⟩
    · refine List.pairwise_cons.mpr ⟨fun e he => ?_, ih hrest⟩
      rcases name_of_mem_alter he with he | ⟨e', he', heq⟩
      · rw [he]
        exact lt_of_le_of_ne (not_lt.mp h1) fun hne => h2 hne.symm
      · rw [← heq]
        exact hg e' he'

/-- Altering one field is seen in that field only. -/
theorem Named.lookup_alter (hm : m.Named) :
    (m.alter name f).lookup n = if n = name then some (f (m.postings name)) else m.lookup n := by
  induction m with
  | nil => exact lookup_cons (name, f .empty) [] n
  | cons g m ih =>
    obtain ⟨hg, hrest⟩ := List.pairwise_cons.mp hm
    unfold FieldMap.alter postings
    by_cases h1 : name < g.1
    · have hnone : List.lookup name (g :: m) = none := by
        refine lookup_eq_none (List.forall_mem_cons.mpr ⟨h1, fun e he => ?_⟩)
        exact lt_trans h1 (hg e he)
      rw [if_pos h1, lookup_cons, hnone]
      rfl
    by_cases h2 : name = g.1
    · subst h2
      rw [if_neg h1, if_pos rfl, lookup_cons, lookup_cons, lookup_cons, if_pos rfl]
      split_ifs <;> rfl
    · rw [if_neg h1, if_neg h2, lookup_cons, lookup_cons, lookup_cons, if_neg h2, ih hrest]
      split_ifs with hg hn hn
      · exact absurd (hn.symm.trans hg) h2
      · rfl
      · rfl
      · rfl

theorem Named.postings_alter (hm : m.Named) :
    (m.alter name f).postings n = if n = name then f (m.postings name) else m.postings n := by
  unfold postings
  rw [hm.lookup_alter]
  split_ifs <;> rfl

theorem Named.isSome_lookup_alter (hm : m.Named) :
    ((m.alter name f).lookup n).isSome ↔ n = name ∨ (m.lookup n).isSome := by
  rw [hm.lookup_alter]
  split_ifs with hname <;> simp [hname]

end FieldMap

/-! ### Columns -/

/-- The documents of a column with each of their values. -/
def Column.values {τ : Type} (column : Column τ) : List (Nat × τ) :=
  column.zipIdx.flatMap fun (e, doc) => e.toList.map (doc, ·)

theorem Column.mem_values {τ : Type} {column : Column τ} {doc : Nat} {v : τ} :
    (doc, v) ∈ column.values ↔ ∃ e, column[doc]? = some e ∧ v ∈ e.toList := by
  unfold Column.values
  rw [List.mem_flatMap]
  constructor
  · rintro ⟨⟨e, d⟩, he, hv⟩
    obtain ⟨u, hu, heq⟩ := List.mem_map.mp hv
    cases heq
    exact ⟨e, List.mk_mem_zipIdx_iff_getElem?.mp he, hu⟩
  · rintro ⟨e, he, hv⟩
    exact ⟨(e, doc), List.mk_mem_zipIdx_iff_getElem?.mpr he, List.mem_map_of_mem hv⟩

namespace FieldMap

variable {τ : Type} [LinearOrder τ] {m : FieldMap τ} {field name : String} {doc : Nat} {u : τ}

/-- Records values of documents in a field. -/
def record (m : FieldMap τ) (field : String) (values : List (Nat × τ)) : FieldMap τ :=
  values.foldl (fun m (doc, v) => m.alter field (·.add v doc)) m

/-- Registers the field of a column and records its values. -/
def addColumn (m : FieldMap τ) (c : String × Column τ) : FieldMap τ :=
  (m.alter c.1 id).record c.1 (Column.values c.2)

/-- The index of some columns. -/
def ofColumns (columns : List (String × Column τ)) : FieldMap τ := columns.foldl addColumn []

theorem Named.record (hm : m.Named) (field : String) (values : List (Nat × τ)) :
    (m.record field values).Named := by
  induction values generalizing m with
  | nil => exact hm
  | cons v values ih => exact ih (hm.alter field _)

theorem Named.addColumn (hm : m.Named) (c : String × Column τ) : (m.addColumn c).Named :=
  (hm.alter c.1 id).record c.1 _

theorem mem_valuesOf_record (hm : m.Named) {values : List (Nat × τ)} :
    u ∈ ((m.record field values).postings name).valuesOf doc ↔
      name = field ∧ (doc, u) ∈ values ∨ u ∈ (m.postings name).valuesOf doc := by
  induction values generalizing m with
  | nil => simp [FieldMap.record]
  | cons v values ih =>
    rw [show m.record field (v :: values) =
      (m.alter field (·.add v.2 v.1)).record field values from rfl, ih (hm.alter field _),
      hm.postings_alter]
    by_cases hname : name = field
    · subst hname
      rw [if_pos rfl, Postings.mem_valuesOf_add, List.mem_cons, Prod.ext_iff]
      tauto
    · rw [if_neg hname]
      simp only [hname, false_and, false_or]

theorem mem_valuesOf_addColumn (hm : m.Named) {c : String × Column τ} :
    u ∈ ((m.addColumn c).postings name).valuesOf doc ↔
      name = c.1 ∧ (doc, u) ∈ Column.values c.2 ∨ u ∈ (m.postings name).valuesOf doc := by
  unfold FieldMap.addColumn
  rw [mem_valuesOf_record (hm.alter c.1 id), hm.postings_alter]
  split_ifs with hname
  · rw [hname]
    rfl
  · rfl

/-- The index says what the columns do. -/
theorem mem_valuesOf_ofColumns {columns : List (String × Column τ)} :
    u ∈ ((ofColumns columns).postings field).valuesOf doc ↔
      ∃ c ∈ columns, field = c.1 ∧ (doc, u) ∈ Column.values c.2 := by
  have hfold : ∀ m : FieldMap τ, m.Named →
      (u ∈ ((columns.foldl FieldMap.addColumn m).postings field).valuesOf doc ↔
        (∃ c ∈ columns, field = c.1 ∧ (doc, u) ∈ Column.values c.2) ∨
          u ∈ (m.postings field).valuesOf doc) := by
    induction columns with
    | nil => simp
    | cons c columns ih =>
      intro m hm
      rw [List.foldl_cons, ih _ (hm.addColumn c), mem_valuesOf_addColumn hm,
        List.exists_mem_cons_iff, or_left_comm, or_assoc]
  rw [ofColumns, hfold [] List.Pairwise.nil]
  exact or_iff_left List.not_mem_nil

/-- Recording values in a field that is there registers no other. -/
theorem Named.isSome_lookup_record (hm : m.Named) (hname : (m.lookup name).isSome)
    (values : List (Nat × τ)) :
    ((m.record name values).lookup field).isSome ↔ (m.lookup field).isSome := by
  induction values generalizing m with
  | nil => exact Iff.rfl
  | cons v values ih =>
    refine (ih (hm.alter name _) (hm.isSome_lookup_alter.mpr (.inl rfl))).trans ?_
    rw [hm.isSome_lookup_alter]
    refine or_iff_right_of_imp fun hfield => ?_
    rwa [hfield]

/-- A field is indexed if there is a column of its name. -/
theorem isSome_lookup_ofColumns {columns : List (String × Column τ)} :
    ((ofColumns columns).lookup field).isSome ↔ field ∈ columns.map (·.1) := by
  have hfold : ∀ m : FieldMap τ, m.Named →
      (((columns.foldl FieldMap.addColumn m).lookup field).isSome ↔
        field ∈ columns.map (·.1) ∨ (m.lookup field).isSome) := by
    induction columns with
    | nil => simp
    | cons c columns ih =>
      intro m hm
      have hadded : ((m.addColumn c).lookup field).isSome ↔
          field = c.1 ∨ (m.lookup field).isSome := by
        refine ((hm.alter c.1 id).isSome_lookup_record ?_ _).trans hm.isSome_lookup_alter
        exact hm.isSome_lookup_alter.mpr (.inl rfl)
      rw [List.foldl_cons, ih _ (hm.addColumn c), hadded, List.map_cons, List.mem_cons,
        or_left_comm, or_assoc]
  rw [ofColumns, hfold [] List.Pairwise.nil]
  exact or_iff_left Bool.false_ne_true

end FieldMap

end Cohort
