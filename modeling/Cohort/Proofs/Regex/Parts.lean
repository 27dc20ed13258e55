import Cohort.Proofs.Regex.Classes

/-!
# Parts with more behind — one step of reading without and with the end

A closing parenthesis and an anchor behind a pattern do not change how its next part is read
(`State.kept_step?`), except where the part itself is not complete and takes the parenthesis for
something else.
-/

namespace Cohort.Regex

variable {o : Options} {cs : List Char}

/-! ### Repetitions -/

/-- A parenthesis is no blank. -/
theorem dropWhile_blank_closing (cs : List Char) :
    (cs ++ closing).dropWhile Unicode.isWhiteSpace =
      cs.dropWhile Unicode.isWhiteSpace ++ closing := by
  rw [List.dropWhile_append]
  split_ifs with h
  · rw [List.isEmpty_iff.mp h]
    decide
  · rfl

theorem kept_span {p : Char → Bool} (hp : p ')' = false) (cs : List Char) :
    Kept Never (some (o.span p cs)) (some (o.span p (cs ++ closing))) := by
  rcases span_append_before (o := o) p cs hp with hspan | ⟨hnil, hspan⟩
  · rw [hspan]
    exact .read _ _
  · have hcs : o.span p cs = ((o.span p cs).1, []) := Prod.ext rfl hnil
    rw [hspan, hcs]
    exact .drained _

theorem kept_readCount (cs : List Char) :
    Kept Never (readCount o cs) (readCount o (cs ++ closing)) := by
  unfold readCount
  rw [dropWhile_blank_closing]
  refine Kept.bind (f := fun p => (Text.number? Text.decimalDigit? 10 p.1).bind
    fun n => if n < halfWordBound then some (n, p.2.dropWhile Unicode.isWhiteSpace) else none)
    (kept_span (p := Char.isDigit) rfl _) (fun digits rest => ?_) (fun digits => ?_)
    fun _ _ h => h.elim
  · dsimp only
    rw [dropWhile_blank_closing]
    cases Text.number? Text.decimalDigit? 10 digits with
    | none => exact .failed
    | some n =>
      dsimp only [Option.bind_some]
      split_ifs
      · exact .read _ _
      · exact .failed
  · dsimp only
    cases Text.number? Text.decimalDigit? 10 digits with
    | none => exact .failed
    | some n =>
      dsimp only [Option.bind_some]
      split_ifs
      · exact .drained _
      · exact .failed

/-- The parenthesis is no number. -/
theorem readCount_closing : readCount o closing = none := by
  have hblank : closing.dropWhile Unicode.isWhiteSpace = closing := by decide
  unfold readCount
  rw [hblank]
  rfl

/-- The number that stands before the closing brace, if it is not less than `min`. -/
theorem readUpper_eq {min : Nat} (h : ∀ t, o.skip cs ≠ '\x7d' :: t) :
    readUpper o min cs = (readCount o (o.skip cs)).bind fun p =>
      if p.2.head? = some '\x7d' ∧ min ≤ p.1 then some (some p.1, p.2.tail) else none := by
  unfold readUpper
  split
  · rename_i rest hskip
    exact absurd hskip (h rest)
  · congr 1
    funext p
    split
    · simp
    · rename_i hne
      rw [if_neg]
      rintro ⟨hhead, -⟩
      obtain ⟨rest, hrest⟩ := List.head?_eq_some_iff.mp hhead
      exact hne p.1 rest (Prod.ext rfl hrest)

theorem kept_readUpper (min : Nat) (cs : List Char) :
    Kept Never (readUpper o min cs) (readUpper o min (cs ++ closing)) := by
  by_cases h : ∃ t, o.skip cs = '\x7d' :: t
  · obtain ⟨t, ht⟩ := h
    unfold readUpper
    rcases skip_append o cs with hskip | ⟨hskip, -⟩
    · rw [hskip, ht]
      exact .read _ _
    · rw [ht] at hskip
      cases hskip
  · rw [not_exists] at h
    rw [readUpper_eq h, readUpper_eq (skip_append_ne (by decide) h)]
    refine (Kept.skip kept_readCount .failed o cs).bind (fun max rest => ?_) (fun _ => .failed)
      fun _ _ h => h.elim
    cases rest with
    | nil => exact .failed
    | cons c rest =>
      show Kept Never (if some c = some '\x7d' ∧ min ≤ max then some (some max, rest) else none)
        (if some c = some '\x7d' ∧ min ≤ max then some (some max, rest ++ closing) else none)
      by_cases hend : some c = some '\x7d' ∧ min ≤ max
      · rw [if_pos hend, if_pos hend]
        exact .read _ _
      · rw [if_neg hend, if_neg hend]
        exact .failed

theorem kept_readBounds (cs : List Char) :
    Kept Never (readBounds o cs) (readBounds o (cs ++ closing)) := by
  refine (Kept.skip kept_readCount .failed o cs).bind (fun min rest => ?_) (fun _ => .failed)
    fun _ _ h => h.elim
  cases rest with
  | nil => exact .failed
  | cons c rest =>
    rw [List.cons_append]
    split
    · rename_i heq
      cases heq
      exact .read _ _
    · rename_i heq
      cases heq
      exact (kept_readUpper min rest).map (f := fun max => (min, max)) fun _ _ h => h
    · rename_i hbrace hcomma
      split
      · rename_i heq
        cases heq
        exact absurd rfl (hbrace min rest)
      · rename_i heq
        cases heq
        exact absurd rfl (hcomma min rest)
      · exact .failed

theorem kept_readSettings (settings : List (Letter × Bool)) (minus dangling : Bool)
    (cs : List Char) : Kept Cut (readSettings settings minus dangling cs)
      (readSettings settings minus dangling (cs ++ closing)) := by
  induction cs generalizing settings minus dangling with
  | nil =>
    cases dangling with
    | true => exact .failed
    | false => exact .strayed (.inr rfl)
  | cons c cs ih =>
    rw [List.cons_append]
    unfold readSettings
    split_ifs
    · exact .failed
    · exact .read _ _
    · exact .failed
    · exact ih _ _ _
    · cases Letter.ofChar? c with
      | none => exact .failed
      | some letter =>
        dsimp only
        split_ifs
        · exact .failed
        · exact ih _ _ _

theorem kept_readName (cs : List Char) :
    Kept Never (readName cs) (readName (cs ++ closing)) := by
  unfold readName
  rcases dropWhile_append_through (· != '>') cs rfl rfl with
    ⟨hne, hdrop, htake⟩ | ⟨hdrop, hdrop'⟩
  · rw [hdrop, htake]
    obtain ⟨c, rest, hrest⟩ := List.exists_cons_of_ne_nil hne
    rw [hrest]
    cases cs.takeWhile (· != '>') with
    | nil => exact .failed
    | cons first more =>
      dsimp only [List.cons_append]
      split_ifs
      · exact .read _ _
      · exact .failed
  · rw [hdrop, hdrop']
    rcases cs.takeWhile (· != '>') with _ | ⟨c, t⟩ <;>
      rcases (cs ++ closing).takeWhile (· != '>') with _ | ⟨d, u⟩ <;>
      exact .failed

namespace State

theorem kept_enterNamed? (s : State) (cs : List Char) :
    Kept Never (s.enterNamed? cs) (s.enterNamed? (cs ++ closing)) := by
  refine (kept_readName cs).choose fun name => ?_
  cases hname : s.names.contains name with
  | true => exact .inl fun _ => by simp only [hname, if_true]
  | false => exact .inr ⟨_, fun _ => by simp only [hname]; rfl, fun _ h => h⟩

/-- What starts no name is read as settings. -/
theorem enterMarked?_settings {s : State} (hp : ∀ t, cs ≠ 'P' :: '<' :: t)
    (hname : ∀ t, cs ≠ '<' :: t) :
    s.enterMarked? cs = (readSettings [] false false cs).bind fun p =>
      if p.1.2 then some (s.enter (s.options.apply p.1.1) false, p.2)
      else if p.1.1.isEmpty then none
      else some ({ s with options := s.options.apply p.1.1 }.push ⟨.empty, 0, false⟩, p.2) := by
  unfold enterMarked?
  split
  · exact absurd rfl (hp _)
  · exact absurd rfl (hname _)
  · exact absurd rfl (hname _)
  · exact absurd rfl (hname _)
  · rfl

/-- A name after an angle bracket, unless the bracket starts looking around. -/
theorem enterMarked?_name (s : State) (cs : List Char) :
    s.enterMarked? ('<' :: cs) =
      if cs.head? = some '=' ∨ cs.head? = some '!' then none else s.enterNamed? cs := by
  cases cs with
  | nil => rfl
  | cons c cs =>
    by_cases hc : c = '=' ∨ c = '!'
    · rw [if_pos (by simpa using hc)]
      rcases hc with rfl | rfl
      · rfl
      · rfl
    · rw [if_neg (by simpa using hc)]
      rw [not_or] at hc
      unfold enterMarked?
      split
      all_goals simp_all

theorem kept_enterMarked? (s : State) (cs : List Char) :
    Kept Cut (s.enterMarked? cs) (s.enterMarked? (cs ++ closing)) := by
  by_cases hp : ∃ t, cs = 'P' :: '<' :: t
  · obtain ⟨t, rfl⟩ := hp
    exact (kept_enterNamed? s t).mono fun _ _ h => h.elim
  · by_cases hname : ∃ t, cs = '<' :: t
    · obtain ⟨t, rfl⟩ := hname
      have hhead : (t.head? = some '=' ∨ t.head? = some '!') ↔
          ((t ++ closing).head? = some '=' ∨ (t ++ closing).head? = some '!') := by
        cases t with
        | nil => decide
        | cons c t => rfl
      rw [List.cons_append, enterMarked?_name, enterMarked?_name]
      by_cases hlook : t.head? = some '=' ∨ t.head? = some '!'
      · rw [if_pos hlook, if_pos (hhead.mp hlook)]
        exact .failed
      · rw [if_neg hlook, if_neg fun h => hlook (hhead.mpr h)]
        exact (kept_enterNamed? s t).mono fun _ _ h => h.elim
    · rw [not_exists] at hp hname
      have hp' : ∀ t, cs ++ closing ≠ 'P' :: '<' :: t := by
        rcases cs with _ | ⟨c, _ | ⟨d, t⟩⟩
        · exact fun t h => by cases h
        · exact fun t h => by cases h
        · intro u h
          cases h
          exact hp t rfl
      rw [enterMarked?_settings hp hname,
        enterMarked?_settings hp' (append_closing_ne (by decide) hname)]
      refine (kept_readSettings [] false false cs).choose fun x => ?_
      obtain ⟨settings, isGroup⟩ := x
      cases isGroup with
      | true => exact .inr ⟨s.enter (s.options.apply settings) false, fun _ => rfl, fun _ h => h⟩
      | false =>
        cases settings with
        | nil => exact .inl fun _ => rfl
        | cons setting settings =>
          exact .inr ⟨{ s with options := s.options.apply (setting :: settings) }.push
            ⟨.empty, 0, false⟩, fun _ => rfl, fun _ h => h⟩

theorem enter?_marked {s : State} {t : List Char} (h : s.options.skip cs = '?' :: t) :
    s.enter? cs = s.enterMarked? t := by
  unfold enter?
  rw [h]
  rfl

theorem enter?_plain {s : State} (h : ∀ t, s.options.skip cs ≠ '?' :: t) :
    s.enter? cs = some (s.enter s.options true, s.options.skip cs) := by
  unfold enter?
  split
  · rename_i t ht
    exact absurd ht (h t)
  · rfl

theorem kept_enter? (s : State) (cs : List Char) :
    Kept Cut (s.enter? cs) (s.enter? (cs ++ closing)) := by
  by_cases h : ∃ t, s.options.skip cs = '?' :: t
  · obtain ⟨t, ht⟩ := h
    rcases skip_append s.options cs with hskip | ⟨hskip, -⟩
    · rw [ht] at hskip
      rw [enter?_marked ht, enter?_marked hskip]
      exact kept_enterMarked? s t
    · rw [ht] at hskip
      cases hskip
  · rw [not_exists] at h
    rw [enter?_plain h, enter?_plain (skip_append_ne (by decide) h)]
    exact Kept.skip (R := fun t => some (_, t)) (fun t => .read _ t) (.drained _) s.options cs

theorem readMark_append (cs : List Char) :
    readMark (cs ++ closing) = ((readMark cs).1, (readMark cs).2 ++ closing) := by
  cases cs with
  | nil => rfl
  | cons c cs =>
    by_cases hc : c = '?'
    · subst hc
      rfl
    · have hplain : ∀ t, readMark (c :: t) = (false, c :: t) := by
        intro t
        unfold readMark
        split
        · rename_i heq
          cases heq
          exact absurd rfl hc
        · rfl
      rw [List.cons_append, hplain, hplain]
      rfl

theorem kept_repeatLast? (s : State) (min : Nat) (max : Option Nat) (cs : List Char) :
    Kept Never (s.repeatLast? min max cs) (s.repeatLast? min max (cs ++ closing)) := by
  unfold repeatLast?
  rw [readMark_append]
  split
  · exact .failed
  · split_ifs
    · exact .read _ _
    · exact .failed

theorem repeatLast?_nil (s : State) (min : Nat) (max : Option Nat) :
    Kept Never (s.repeatLast? min max []) (s.repeatLast? min max []) := by
  unfold repeatLast?
  split
  · exact .failed
  · split_ifs
    · exact .drained _
    · exact .failed

/-- What is left where a part takes the parenthesis for itself. -/
abbrev Ruined : State → List Char → Prop := fun s rest => Spent s.options s rest

/-- Characters that mean something else than themselves. -/
abbrev special : List Char :=
  ['(', ')', '|', '[', '?', '*', '+', '\x7b', '\\', '.', '^', '$']

theorem step?_literal (s : State) {c : Char} (hc : c ∉ special) (cs : List Char) :
    s.step? (c :: cs) = (literal? s.options c false).map fun node => (s.pushNode node, cs) := by
  unfold step?
  split
  all_goals simp_all

theorem kept_readClass (o : Options) (cs : List Char) :
    Kept Never (readClass o cs) (readClass o (cs ++ closing)) := by
  rw [readClass_append]
  cases readClass o cs with
  | none => exact .failed
  | some p => exact .read _ _

/-- The next part of a pattern is read the same with the end behind it. -/
theorem kept_step? (s : State) (hne : cs ≠ []) :
    Kept Ruined (s.step? cs) (s.step? (cs ++ closing)) := by
  obtain ⟨c, cs, rfl⟩ := List.exists_cons_of_ne_nil hne
  rw [List.cons_append]
  -- a part of one character is read whatever follows
  have hmap : ∀ {α : Type} (x : Option α) (f : α → State),
      Kept Ruined (x.map fun y => (f y, cs)) (x.map fun y => (f y, cs ++ closing)) := by
    intro α x f
    cases x with
    | none => exact .failed
    | some y => exact .read _ _
  by_cases hc : c ∈ special
  · simp only [List.mem_cons, List.not_mem_nil, or_false] at hc
    rcases hc with rfl | rfl | rfl | rfl | rfl | rfl | rfl | rfl | rfl | rfl | rfl | rfl
    · exact (kept_enter? s cs).mono fun _ _ => .of_cut
    · exact hmap s.leave? id
    · exact .read _ _
    · exact (kept_readClass s.options cs).map
        (f := fun c => s.push ⟨.set c.set, c.depth, true⟩) fun _ _ h => h.elim
    · exact (kept_repeatLast? s 0 (some 1) cs).mono fun _ _ h => h.elim
    · exact (kept_repeatLast? s 0 none cs).mono fun _ _ h => h.elim
    · exact (kept_repeatLast? s 1 none cs).mono fun _ _ h => h.elim
    · refine (kept_readBounds cs).bind (fun x rest => ?_) (fun x => ?_) fun _ _ h => h.elim
      · exact (Kept.skip (kept_repeatLast? s x.1 x.2) (repeatLast?_nil s x.1 x.2) s.options
          rest).mono fun _ _ h => h.elim
      · show Kept Ruined (s.repeatLast? x.1 x.2 (s.options.skip []))
          (s.repeatLast? x.1 x.2 (s.options.skip []))
        rw [skip_nil]
        exact (repeatLast?_nil s x.1 x.2).mono fun _ _ h => h.elim
    · refine (kept_readEscape cs).choose fun atom => ?_
      cases hnode : nodeOfAtom? s.options atom with
      | none => exact .inl fun _ => by simp only [hnode, Option.map_none]
      | some node =>
        exact .inr ⟨s.pushNode node, fun _ => by simp only [hnode, Option.map_some],
          fun _ h => h⟩
    · exact hmap (dot? s.options) fun set => s.pushNode (.set set)
    · exact .read _ _
    · exact .read _ _
  · rw [step?_literal s hc, step?_literal s hc]
    exact hmap (literal? s.options c false) s.pushNode

end State

end Cohort.Regex
