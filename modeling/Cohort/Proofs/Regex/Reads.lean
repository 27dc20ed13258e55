import Cohort.Proofs.Regex.Parts

/-!
# Runs of the reader — with an end behind the text and a group around it

`Reads` is the reading of part after part as a relation, which is what the fuelled reader computes
(`reads_iff`). An end behind the text is where reading goes on once the text is read, unless it
belongs to a comment (`Reads.append`); a group around the text shows only where a parenthesis
closes it (`Reads.within`, `Reads.leaves`).
-/

namespace Cohort.Regex

variable {s t u : State} {cs rest after : List Char}

/-- Reading from a state stops in another one, with the rest of the text left. -/
inductive Reads : State → List Char → State → List Char → Prop
  | stop {s : State} {cs : List Char} (h : s.step? (s.options.skip cs) = none) :
      Reads s cs s (s.options.skip cs)
  | step {s t u : State} {cs rest after : List Char}
      (h : s.step? (s.options.skip cs) = some (t, rest)) (hnext : Reads t rest u after) :
      Reads s cs u after

/-- There is fuel for every part, since a part takes a character. -/
theorem reads_readOn {n : Nat} (hn : cs.length < n) :
    Reads s cs (s.readOn n cs).1 (s.readOn n cs).2 := by
  induction n generalizing s cs with
  | zero => omega
  | succ n ih =>
    unfold State.readOn
    cases h : s.step? (s.options.skip cs) with
    | none => exact .stop h
    | some r =>
      obtain ⟨t, rest⟩ := r
      have hlt := State.length_lt_of_step? h
      have hle := (skip_suffix s.options cs).length_le
      exact .step h (ih (by omega))

theorem Reads.unique {u' : State} {after' : List Char} (h : Reads s cs u after)
    (h' : Reads s cs u' after') : u = u' ∧ after = after' := by
  induction h with
  | stop h =>
    cases h' with
    | stop _ => exact ⟨rfl, rfl⟩
    | step h' _ => rw [h] at h'; cases h'
  | step h _ ih =>
    cases h' with
    | stop h' => rw [h] at h'; cases h'
    | step h' hnext =>
      rw [h] at h'
      cases h'
      exact ih hnext

theorem reads_iff {n : Nat} (hn : cs.length < n) :
    Reads s cs u after ↔ s.readOn n cs = (u, after) := by
  constructor
  · intro h
    obtain ⟨rfl, rfl⟩ := h.unique (reads_readOn hn)
    rfl
  · intro h
    have := reads_readOn (s := s) hn
    rwa [h] at this

theorem reads_stop_iff : Reads .start cs u after ↔ stop cs = (u, after) :=
  reads_iff (Nat.lt_succ_self _)

/-- What means nothing at the front is dropped first. -/
theorem Reads.of_skip_eq {cs' : List Char} (hskip : s.options.skip cs = s.options.skip cs')
    (h : Reads s cs u after) : Reads s cs' u after := by
  cases h with
  | stop h =>
    rw [hskip] at h ⊢
    exact .stop h
  | step h hnext => exact .step (hskip ▸ h) hnext

theorem reads_nil (s : State) : Reads s [] s [] := by
  have h : Reads s [] s (s.options.skip []) := .stop (by rw [skip_nil]; rfl)
  rwa [skip_nil] at h

/-- The anchor is the last part where nothing but it is left. -/
theorem reads_anchor (s : State) :
    Reads s ['$'] (s.pushNode (.look (dollar s.options))) [] :=
  .step (by rw [skip_anchor]; rfl) (reads_nil _)

/-! ### An end behind -/

/-- Where the parenthesis was taken for something else nothing closes a group any more. -/
theorem reads_ruined (h : Spent s.options s rest) :
    ∃ u after, Reads s rest u after ∧ ∀ t, after ≠ ')' :: t := by
  rcases h with rfl | rfl | ⟨cs, rfl, hskip⟩
  · exact ⟨_, _, reads_nil s, nofun⟩
  · exact ⟨_, _, reads_anchor s, nofun⟩
  · have hbounds : readBounds s.options cs = none := by
      unfold readBounds
      rw [hskip, readCount_closing]
      rfl
    have hstep : s.step? ('\x7b' :: cs) = none := by
      show (readBounds s.options cs).bind _ = none
      rw [hbounds]
      rfl
    refine ⟨s, '\x7b' :: cs, ?_, by simp⟩
    have h : Reads s ('\x7b' :: cs) s (s.options.skip ('\x7b' :: cs)) :=
      .stop (by rw [skip_brace]; exact hstep)
    rwa [skip_brace] at h

/-- How reading ends with the end behind the text, where it stops in `u` without. -/
inductive Appended (s : State) (cs : List Char) (u : State) : List Char → Prop
  /-- All is read, and reading goes on with the end. -/
  | through (h : ∀ {v r}, Reads u closing v r → Reads s (cs ++ closing) v r) : Appended s cs u []
  /-- The end belongs to a comment. -/
  | drained (h : Reads s (cs ++ closing) u []) : Appended s cs u []
  /-- Reading stops at the same place. -/
  | stopped {after : List Char} (hne : after ≠ [])
      (h : Reads s (cs ++ closing) u (after ++ closing)) : Appended s cs u after
  /-- A part that is not complete takes the parenthesis for something else. -/
  | strayed {after r : List Char} {v : State} (hne : after ≠ []) (h : Reads s (cs ++ closing) v r)
      (hr : ∀ t, r ≠ ')' :: t) : Appended s cs u after

theorem Reads.append (h : Reads s cs u after) : Appended s cs u after := by
  induction h with
  | @stop s cs h =>
    rcases skip_append s.options cs with hskip | ⟨hskip, hskip'⟩
    · by_cases hnil : s.options.skip cs = []
      · rw [hnil] at hskip ⊢
        refine .through fun hend => hend.of_skip_eq ?_
        rw [skip_closing, hskip]
        rfl
      · have hkept := State.kept_step? s hnil
        rw [h, ← hskip] at hkept
        cases hstep : s.step? (s.options.skip (cs ++ closing)) with
        | none => exact .stopped hnil (hskip ▸ .stop hstep)
        | some r =>
          obtain ⟨t, rest⟩ := r
          rw [hstep] at hkept
          cases hkept with
          | strayed hruined =>
            -- the part took the parenthesis, and what is left after it closes no group
            obtain ⟨v, r, hreads, hr⟩ := reads_ruined hruined
            exact .strayed hnil (.step hstep hreads) hr
    · rw [hskip]
      exact .drained (hskip' ▸ .stop (by rw [hskip']; rfl))
  | @step s t u cs rest after h hnext ih =>
    have hnil : s.options.skip cs ≠ [] := by
      intro hnil
      rw [hnil] at h
      cases h
    rcases skip_append s.options cs with hskip | ⟨hskip, -⟩
    · have hkept := State.kept_step? s hnil
      rw [h, ← hskip] at hkept
      generalize hstep : s.step? (s.options.skip (cs ++ closing)) = r' at hkept
      cases hkept with
      | read =>
        cases ih with
        | through hend => exact .through fun hv => .step hstep (hend hv)
        | drained hend => exact .drained (.step hstep hend)
        | stopped hne hend => exact .stopped hne (.step hstep hend)
        | strayed hne hend hr => exact .strayed hne (.step hstep hend) hr
      | drained =>
        -- a comment has taken the closing, so nothing is left to read
        obtain ⟨rfl, rfl⟩ := hnext.unique (reads_nil t)
        exact .drained (.step hstep hnext)
    · exact absurd hskip hnil

/-! ### A group around -/

/-- The state inside one more group around all others. -/
def State.within (s : State) (w : Opened) : State := { s with outer := s.outer ++ [w] }

namespace State

variable {w : Opened}

theorem within_level (s : State) : (s.within w).level = s.level := rfl

theorem within_options (s : State) : (s.within w).options = s.options := rfl

theorem enterNamed?_within (s : State) (cs : List Char) :
    (s.within w).enterNamed? cs = (s.enterNamed? cs).map fun p => (p.1.within w, p.2) := by
  unfold enterNamed?
  cases readName cs with
  | none => rfl
  | some r =>
    dsimp only [Option.bind_some]
    show (if s.names.contains r.1 then none else _) = _
    split_ifs
    · rfl
    · rfl

theorem enterMarked?_within (s : State) (cs : List Char) :
    (s.within w).enterMarked? cs = (s.enterMarked? cs).map fun p => (p.1.within w, p.2) := by
  unfold enterMarked?
  split
  · exact enterNamed?_within s _
  · rfl
  · rfl
  · exact enterNamed?_within s _
  · cases readSettings [] false false _ with
    | none => rfl
    | some r =>
      obtain ⟨⟨settings, isGroup⟩, rest⟩ := r
      dsimp only [Option.bind_some]
      split_ifs
      · rfl
      · rfl
      · rfl

theorem enter?_within (s : State) (cs : List Char) :
    (s.within w).enter? cs = (s.enter? cs).map fun p => (p.1.within w, p.2) := by
  by_cases h : ∃ t, s.options.skip cs = '?' :: t
  · obtain ⟨t, ht⟩ := h
    rw [enter?_marked ht, enter?_marked (s := s.within w) ht]
    exact enterMarked?_within s t
  · rw [not_exists] at h
    rw [enter?_plain h, enter?_plain (s := s.within w) h]
    rfl

theorem repeatLast?_within (s : State) (min : Nat) (max : Option Nat) (cs : List Char) :
    (s.within w).repeatLast? min max cs =
      (s.repeatLast? min max cs).map fun p => (p.1.within w, p.2) := by
  cases hparts : s.level.parts with
  | nil => simp only [repeatLast?, within_level, hparts, Option.map_none]
  | cons part parts =>
    simp only [repeatLast?, within_level, within_options, hparts]
    split_ifs
    · rfl
    · rfl

theorem leave?_within (s : State) (h : s.outer ≠ []) :
    (s.within w).leave? = s.leave?.map (·.within w) := by
  obtain ⟨opened, outer, houter⟩ := List.exists_cons_of_ne_nil h
  obtain ⟨level, outer', options, names⟩ := s
  cases houter
  rfl

/-- A part is read the same in one more group, except for the parenthesis that closes it. -/
theorem step?_within (s : State) (h : (∀ t, cs ≠ ')' :: t) ∨ s.outer ≠ []) :
    (s.within w).step? cs = (s.step? cs).map fun p => (p.1.within w, p.2) := by
  have hmap : ∀ {α : Type} (x : Option α) (f f' : α → State) (cs : List Char),
      (∀ y, f' y = (f y).within w) → x.map (fun y => (f' y, cs)) =
        (x.map fun y => (f y, cs)).map fun p => (p.1.within w, p.2) := by
    intro α x f f' cs hf
    cases x with
    | none => rfl
    | some y =>
      show some (f' y, cs) = some ((f y).within w, cs)
      rw [hf]
  cases cs with
  | nil => rfl
  | cons c cs =>
    by_cases hc : c ∈ special
    · simp only [List.mem_cons, List.not_mem_nil, or_false] at hc
      rcases hc with rfl | rfl | rfl | rfl | rfl | rfl | rfl | rfl | rfl | rfl | rfl | rfl
      · exact enter?_within s cs
      · -- only this parenthesis asks for a group that is open
        have houter := h.resolve_left fun h => h cs rfl
        show (s.within w).leave?.map _ = (s.leave?.map _).map _
        rw [leave?_within s houter]
        cases s.leave? with
        | none => rfl
        | some t => rfl
      · rfl
      · show (readClass s.options cs).map _ = ((readClass s.options cs).map _).map _
        cases readClass s.options cs with
        | none => rfl
        | some r => rfl
      · exact repeatLast?_within s 0 (some 1) cs
      · exact repeatLast?_within s 0 none cs
      · exact repeatLast?_within s 1 none cs
      · show (readBounds s.options cs).bind _ = ((readBounds s.options cs).bind _).map _
        cases readBounds s.options cs with
        | none => rfl
        | some r => exact repeatLast?_within s _ _ _
      · show (readEscape s.options cs).bind _ = ((readEscape s.options cs).bind _).map _
        cases readEscape s.options cs with
        | none => rfl
        | some r => exact hmap (nodeOfAtom? s.options r.1) s.pushNode _ r.2 fun _ => rfl
      · exact hmap (dot? s.options) (fun set => s.pushNode (.set set)) _ cs fun _ => rfl
      · rfl
      · rfl
    · rw [step?_literal _ hc, step?_literal _ hc]
      exact hmap (literal? s.options c false) s.pushNode _ cs fun _ => rfl

end State

/-- A parenthesis that is read closes a group of the text. -/
theorem State.not_closing_of_step? (h : s.step? cs = some (t, rest)) :
    (∀ r, cs ≠ ')' :: r) ∨ s.outer ≠ [] := by
  rw [or_iff_not_imp_right, not_not]
  rintro houter r rfl
  change s.leave?.map _ = _ at h
  unfold State.leave? at h
  rw [houter] at h
  cases h

theorem Reads.within {w : Opened} (h : Reads s cs u after)
    (hopen : (∀ t, after ≠ ')' :: t) ∨ u.outer ≠ []) :
    Reads (s.within w) cs (u.within w) after := by
  induction h with
  | @stop s cs h =>
    refine .stop (s := s.within w) ?_
    show (s.within w).step? (s.options.skip cs) = none
    rw [State.step?_within s hopen, h]
    rfl
  | @step s t u cs rest after h hnext ih =>
    refine .step (t := t.within w) ?_ (ih hopen)
    show (s.within w).step? (s.options.skip cs) = _
    rw [State.step?_within s (State.not_closing_of_step? h), h]
    rfl

/-- Where a parenthesis closes no group of the text, it closes the group around. -/
theorem Reads.leaves {w : Opened} {r : List Char} {v : State} (h : Reads s cs u (')' :: rest))
    (houter : u.outer = []) (hleave : (u.within w).leave? = some t) (hnext : Reads t rest v r) :
    Reads (s.within w) cs v r := by
  generalize hafter : ')' :: rest = after at h
  induction h with
  | @stop s cs h =>
    refine .step (s := s.within w) (t := t) ?_ hnext
    show (s.within w).step? (s.options.skip cs) = _
    rw [← hafter]
    show (s.within w).leave?.map _ = _
    rw [hleave]
    rfl
  | @step s t' u cs rest' after h hread ih =>
    refine .step (t := t'.within w) ?_ (ih houter hleave hafter)
    show (s.within w).step? (s.options.skip cs) = _
    rw [State.step?_within s (State.not_closing_of_step? h), h]
    rfl

end Cohort.Regex
