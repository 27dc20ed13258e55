import Cohort.Proofs.Regex.Matcher
import Cohort.Proofs.Regex.Reads

/-!
# Patterns in a group between anchors

To match whole texts, a pattern is written into a group between the anchors of the text. The result
is the pattern in that group, so that it matches where the pattern matches all of a text
(`isMatch_anchored`), as long as the text of the pattern lets it be (`SelfContained`): a pattern may
close the group around it and open another one, it may end in a comment that the end then belongs
to, and the group takes some of the depth and size that a pattern may have.
-/

namespace Cohort.Regex

variable {s t u : State} {cs rest after : List Char} {p : Piece}

/-- A pattern in a group between the anchors of the text. -/
def enclosed (cs : List Char) : List Char := '^' :: '(' :: '?' :: ':' :: (cs ++ closing)

theorem toList_enclosed (pattern : String) :
    ("^(?:" ++ pattern ++ ")$").toList = enclosed pattern.toList := by
  simp [enclosed]

/-- What a pattern means in a group between the anchors. -/
def Node.anchored (n : Node) : Node :=
  .seq (.look .textStart) (.seq (.group false n) (.look .textEnd))

def Piece.enclosed (p : Piece) : Piece := ⟨p.node.anchored, p.depth + 2, true⟩

/-- The group, with what was read before it. -/
def around : Opened := ⟨⟨[], [⟨.look .textStart, 0, true⟩]⟩, {}, false⟩

theorem reads_enclosed (h : Reads (State.start.within around) (cs ++ closing) u after) :
    Reads .start (enclosed cs) u after := by
  have hgroup : Reads (State.start.pushNode (.look .textStart))
      ('(' :: '?' :: ':' :: (cs ++ closing)) u after := .step rfl h
  exact .step rfl hgroup

theorem read?_of_reads (h : Reads .start cs u after) :
    read? cs = if after.isEmpty && u.outer.isEmpty then some u.level.close else none := by
  unfold read?
  rw [reads_stop_iff.mp h]

theorem reads_of_read? (h : read? cs = some p) :
    ∃ u, Reads .start cs u [] ∧ u.outer = [] ∧ p = u.level.close := by
  unfold read? at h
  generalize hstop : stop cs = r at h
  obtain ⟨u, after⟩ := r
  dsimp only at h
  split_ifs at h with hend
  rw [Bool.and_eq_true, List.isEmpty_iff, List.isEmpty_iff] at hend
  obtain ⟨rfl, houter⟩ := hend
  cases h
  exact ⟨u, reads_stop_iff.mpr hstop, houter, rfl⟩

/-- Within the group nothing is a pattern where the group is still open. -/
theorem read?_enclosed_of_open {v : State} {r : List Char}
    (h : Reads .start (cs ++ closing) v r) (hr : (∀ t, r ≠ ')' :: t) ∨ v.outer ≠ []) :
    read? (enclosed cs) = none := by
  rw [read?_of_reads (reads_enclosed (h.within hr)), if_neg]
  simp [State.within]

/-- A group that is left gives its content as one part, between the anchors. -/
theorem close_enclosed (u : State) (houter : u.outer = []) :
    ∃ t, (u.within around).leave? = some t ∧
      (t.pushNode (.look (dollar t.options))).outer = [] ∧
      (t.pushNode (.look (dollar t.options))).level.close = u.level.close.enclosed := by
  obtain ⟨level, outer, options, names⟩ := u
  cases houter
  have hdeepest : Level.deepest [⟨.look .textEnd, 0, true⟩,
      ⟨.group false level.close.node, level.close.depth + 1, true⟩,
      ⟨.look .textStart, 0, true⟩] = level.close.depth + 1 := by
    simp [Level.deepest]
  exact ⟨_, rfl, rfl,
    congrArg (fun depth => Piece.mk level.close.node.anchored (depth + 1) true) hdeepest⟩

/-- A pattern means the same in the group, unless it ends in a comment. -/
theorem read?_enclosed (h : read? cs = some p) (hcomment : read? (cs ++ closing) = none) :
    read? (enclosed cs) = some p.enclosed := by
  obtain ⟨u, hu, houter, rfl⟩ := reads_of_read? h
  have hclosed : Reads u closing u closing := by
    have hstop : u.step? (u.options.skip closing) = none := by
      rw [skip_closing]
      show u.leave?.map _ = none
      unfold State.leave?
      rw [houter]
      rfl
    have hread := Reads.stop hstop
    rwa [skip_closing] at hread
  cases hu.append with
  | through hend =>
    obtain ⟨t, hleave, ht, hclose⟩ := close_enclosed u houter
    have hread := Reads.leaves (hend hclosed) houter hleave (reads_anchor t)
    rw [read?_of_reads (reads_enclosed hread), ht, hclose]
    rfl
  | drained hend =>
    rw [read?_of_reads hend, houter] at hcomment
    cases hcomment
  | stopped hne _ => exact absurd rfl hne
  | strayed hne _ _ => exact absurd rfl hne

/-- Where the end is read as a part of a pattern it does not close the group. -/
theorem read?_enclosed_of_comment (hcomment : read? (cs ++ closing) ≠ none) :
    read? (enclosed cs) = none := by
  obtain ⟨q, hq⟩ := Option.ne_none_iff_exists'.mp hcomment
  obtain ⟨v, hv, -, -⟩ := reads_of_read? hq
  exact read?_enclosed_of_open hv (.inl nofun)

/-- Reading stops at a parenthesis that closes more than the pattern opens. -/
def Overcloses (cs : List Char) : Prop :=
  (stop cs).2.head? = some ')' ∧ (stop cs).1.outer.isEmpty

instance (cs : List Char) : Decidable (Overcloses cs) := inferInstanceAs (Decidable (_ ∧ _))

/-- What is no pattern is none in the group either, unless it closes the group. -/
theorem read?_enclosed_of_none (h : read? cs = none) (hclose : ¬ Overcloses cs) :
    read? (enclosed cs) = none := by
  generalize hstop : stop cs = r
  obtain ⟨u, after⟩ := r
  have hu := reads_stop_iff.mpr hstop
  rw [read?_of_reads hu] at h
  -- reading does not stop at a parenthesis that would close the group
  have hopen : (∀ t, after ≠ ')' :: t) ∨ u.outer ≠ [] := by
    rw [or_iff_not_imp_right, not_not]
    rintro houter t rfl
    refine hclose ⟨?_, ?_⟩
    · rw [hstop]
      rfl
    · rw [hstop]
      exact List.isEmpty_iff.mpr houter
  cases hu.append with
  | through hend =>
    cases houter : u.outer with
    | nil =>
      rw [houter] at h
      cases h
    | cons opened outer =>
      -- a group of the text is open at its end and takes the parenthesis
      obtain ⟨t, hleave⟩ : ∃ t, u.leave? = some t := by
        unfold State.leave?
        rw [houter]
        exact ⟨_, rfl⟩
      have hstep : u.step? (u.options.skip closing) = some (t, ['$']) := by
        rw [skip_closing]
        show u.leave?.map _ = _
        rw [hleave]
        rfl
      exact read?_enclosed_of_open (hend (.step hstep (reads_anchor t))) (.inl nofun)
  | drained hend => exact read?_enclosed_of_open hend (.inl nofun)
  | @stopped _ hne hend =>
    refine read?_enclosed_of_open hend (hopen.imp_left fun hc t ht => ?_)
    cases after with
    | nil => exact hne rfl
    | cons c after =>
      cases ht
      exact hc after rfl
  | strayed hne hend hr => exact read?_enclosed_of_open hend (.inl hr)

/-- What the text of a pattern must not do to mean the same in the group between the anchors. -/
structure SelfContained (pattern : String) : Prop where
  /-- It does not close the group and still make a pattern together with it. -/
  own_groups : Overcloses pattern.toList → (compile? ("^(?:" ++ pattern ++ ")$")).isNone
  /-- If it is a pattern, it does not end in a comment, which the end would belong to. -/
  no_comment : (compile? pattern).isSome → (read? (pattern.toList ++ closing)).isNone
  /-- The group and the anchors do not decide whether it is too deep or too large. -/
  same_fit : (read? (pattern.toList ++ closing)).isNone →
    ∀ p ∈ read? pattern.toList, p.enclosed.fits = p.fits

instance (pattern : String) : Decidable (SelfContained pattern) :=
  decidable_of_iff
    ((Overcloses pattern.toList → (compile? ("^(?:" ++ pattern ++ ")$")).isNone) ∧
      ((compile? pattern).isSome → (read? (pattern.toList ++ closing)).isNone) ∧
      ((read? (pattern.toList ++ closing)).isNone →
        ∀ p ∈ read? pattern.toList, p.enclosed.fits = p.fits))
    ⟨fun ⟨h, h', h''⟩ => ⟨h, h', h''⟩, fun ⟨h, h', h''⟩ => ⟨h, h', h''⟩⟩

section Compile

variable {pattern : String}

/-- What compiles is read and not too large. -/
theorem compile?_of_read (h : read? pattern.toList = some p) :
    compile? pattern = if p.fits then some p.node else none := by
  show (read? pattern.toList).bind _ = _
  rw [h]
  rfl

theorem compile?_of_none (h : read? pattern.toList = none) : compile? pattern = none := by
  show (read? pattern.toList).bind _ = _
  rw [h]
  rfl

theorem compile?_enclosed_of_read (h : read? pattern.toList = some p)
    (hcomment : read? (pattern.toList ++ closing) = none) :
    compile? ("^(?:" ++ pattern ++ ")$") =
      if p.enclosed.fits then some p.node.anchored else none :=
  compile?_of_read (by rw [toList_enclosed, read?_enclosed h hcomment])

theorem compile?_enclosed_of_comment (hcomment : read? (pattern.toList ++ closing) ≠ none) :
    compile? ("^(?:" ++ pattern ++ ")$") = none :=
  compile?_of_none (by rw [toList_enclosed, read?_enclosed_of_comment hcomment])

theorem compile?_of_overcloses (h : Overcloses pattern.toList) : compile? pattern = none := by
  obtain ⟨hhead, -⟩ := h
  obtain ⟨t, ht⟩ := List.head?_eq_some_iff.mp hhead
  refine compile?_of_none ?_
  unfold read?
  dsimp only
  rw [ht]
  rfl

/-- A text is the same pattern in the group between the anchors, or none both times, if and only if
it is self-contained. -/
theorem compile?_enclosed_iff (pattern : String) :
    compile? ("^(?:" ++ pattern ++ ")$") = (compile? pattern).map Node.anchored ↔
      SelfContained pattern := by
  constructor
  · intro h
    refine ⟨fun hover => ?_, fun hsome => ?_, fun hcomment p hp => ?_⟩
    · rw [h, compile?_of_overcloses hover]
      rfl
    · rw [Option.isNone_iff_eq_none]
      by_contra hcomment
      rw [compile?_enclosed_of_comment hcomment] at h
      rw [Option.map_eq_none_iff.mp h.symm] at hsome
      cases hsome
    · rw [compile?_enclosed_of_read hp (Option.isNone_iff_eq_none.mp hcomment),
        compile?_of_read hp] at h
      cases hfits : p.fits <;> cases hfits' : p.enclosed.fits <;> simp_all
  · intro h
    by_cases hover : Overcloses pattern.toList
    · rw [Option.isNone_iff_eq_none.mp (h.own_groups hover), compile?_of_overcloses hover]
      rfl
    · cases hread : read? pattern.toList with
      | none =>
        rw [compile?_of_none hread, compile?_of_none]
        · rfl
        · rw [toList_enclosed, read?_enclosed_of_none hread hover]
      | some p =>
        by_cases hcomment : read? (pattern.toList ++ closing) = none
        · have hfits := h.same_fit (Option.isNone_iff_eq_none.mpr hcomment) p hread
          rw [compile?_enclosed_of_read hread hcomment, compile?_of_read hread, hfits]
          split_ifs
          · rfl
          · rfl
        · -- a comment at the end of the text swallows the end of the group
          have hnone : compile? pattern = none := by
            rw [Option.eq_none_iff_forall_ne_some]
            intro re hre
            have hsome : (compile? pattern).isSome := by rw [hre]; rfl
            exact hcomment (Option.isNone_iff_eq_none.mp (h.no_comment hsome))
          rw [compile?_enclosed_of_comment hcomment, hnone]
          rfl

end Compile

/-! ### Matching -/

/-- Only the first of all positions is at the start of a text. -/
theorem filter_textStart (text : Array Char) :
    ((List.range (text.size + 1)).filter fun i =>
      Look.textStart.holds (Node.before? text i) text[i]?) = [0] := by
  rw [List.range_succ_eq_map, List.filter_cons_of_pos rfl, List.filter_eq_nil_iff.mpr]
  intro i hi
  obtain ⟨j, hj, rfl⟩ := List.mem_map.mp hi
  show ¬ (text[j]?.isNone = true)
  rw [Array.getElem?_eq_getElem (List.mem_range.mp hj)]
  exact Bool.false_ne_true

/-- Between the anchors some part of a text matches only if all of it does. -/
theorem Node.isMatch_anchored (n : Node) (text : String) :
    n.anchored.isMatch text = n.matchesAll text := by
  unfold isMatch matchesAll
  dsimp only
  generalize text.toList.toArray = text
  show (!List.isEmpty (List.filter (fun i => Look.textEnd.holds (before? text i) text[i]?)
    (n.reach text ((List.range (text.size + 1)).filter fun i =>
      Look.textStart.holds (before? text i) text[i]?)))) = _
  rw [filter_textStart]
  have hle : ∀ i ∈ n.reach text [0], i ≤ text.size :=
    n.reach_le text fun i hi => by
      rw [List.mem_singleton.mp hi]
      exact Nat.zero_le _
  generalize n.reach text [0] = ends at hle ⊢
  rw [Bool.eq_iff_iff, Bool.not_eq_true', List.isEmpty_eq_false_iff, List.contains_iff_mem]
  constructor
  · intro hne
    obtain ⟨i, hi⟩ := List.exists_mem_of_ne_nil _ hne
    obtain ⟨hmem, hend⟩ := List.mem_filter.mp hi
    have hge : text.size ≤ i := Array.getElem?_eq_none_iff.mp (Option.isNone_iff_eq_none.mp hend)
    rwa [Nat.le_antisymm hge (hle i hmem)]
  · intro hmem
    refine List.ne_nil_of_mem (List.mem_filter.mpr ⟨hmem, ?_⟩)
    exact Option.isNone_iff_eq_none.mpr (Array.getElem?_eq_none (Nat.le_refl _))

end Cohort.Regex
