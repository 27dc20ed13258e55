import Mathlib.Data.List.TakeWhile
import Cohort.Proofs.Regex.Appended

/-!
# Classes with more behind — a class is closed within the pattern or not at all

A closing parenthesis and an anchor behind the pattern hold no closing bracket. So a class that they
are read into is never closed (`Doomed`), and one that is closed before is read the same without
and with them (`readClass_append`).
-/

namespace Cohort.Regex

open Unicode (CharSet)

variable {o : Options} {cs rest : List Char} {items : List Nested} {frames : List ClassFrame}

/-! ### Where no class can be closed -/

/-- Whatever class is open here, it is never closed. -/
def Doomed (o : Options) (cs : List Char) : Prop :=
  ∀ n items frames, readClassWithin o n items frames cs = none

theorem eq_cons_of_closed {whole : Nested}
    (h : readClassTurn o items frames cs = some (.closed whole, rest)) : ∃ t, cs = ']' :: t := by
  unfold readClassTurn at h
  split at h
  case h_3 t => exact ⟨t, rfl⟩
  case h_1 => cases h
  case h_2 =>
    split at h
    · obtain ⟨y, -, h⟩ := Option.map_eq_some_iff.mp h
      cases h
    · obtain ⟨y, -, h⟩ := Option.map_eq_some_iff.mp h
      cases h
  case h_7 =>
    obtain ⟨y, -, h⟩ := Option.map_eq_some_iff.mp h
    cases h
  all_goals
    obtain ⟨y, hy, h⟩ := Option.map_eq_some_iff.mp h
    obtain ⟨z, -, hz⟩ := Option.map_eq_some_iff.mp hy
    cases h
    cases hz

theorem not_mem_of_suffix {c : Char} (h : rest <:+ cs) (hc : c ∉ cs) : c ∉ rest :=
  fun hmem => hc (h.subset hmem)

/-- Without a closing bracket no class is closed. -/
theorem doomed_of_not_mem (h : ']' ∉ cs) : Doomed o cs := by
  intro n
  induction n generalizing cs with
  | zero => exact fun _ _ => rfl
  | succ n ih =>
    intro items frames
    unfold readClassWithin
    have hskip : ']' ∉ o.skip cs := not_mem_of_suffix (skip_suffix o cs) h
    cases ht : readClassTurn o items frames (o.skip cs) with
    | none => rfl
    | some r =>
      obtain ⟨turn, rest⟩ := r
      cases turn with
      | closed whole =>
        obtain ⟨t, heq⟩ := eq_cons_of_closed ht
        rw [heq] at hskip
        exact absurd List.mem_cons_self hskip
      | go items frames =>
        exact ih (not_mem_of_suffix ((suffix_readClassTurn ht).trans (List.tail_suffix _)) hskip)
          items frames

theorem doomed_closing : Doomed o closing := doomed_of_not_mem (by decide)

theorem doomed_nil : Doomed o [] := doomed_of_not_mem (by decide)

theorem skip_brace (cs : List Char) : o.skip ('\x7b' :: cs) = '\x7b' :: cs := by
  unfold Options.skip
  split_ifs
  · rfl
  · rfl

/-- A turn with something that is neither a bracket nor an operator. -/
theorem readClassTurn_item {c : Char} (hopen : c ≠ '[') (hclose : c ≠ ']')
    (hop : c ∈ ['&', '-', '~'] → cs.head? ≠ some c) :
    readClassTurn o items frames (c :: cs) =
      (readClassItem o (c :: cs)).map fun (s, rest) => (.go (.ofSet s :: items) frames, rest) := by
  unfold readClassTurn
  split
  all_goals simp_all

/-- A turn that goes on where no class can be closed. -/
theorem doomed_of_go {t : List Char} (hskip : o.skip cs = t)
    (h : ∀ items frames, readClassTurn o items frames t = none ∨
      ∃ items' frames' rest, readClassTurn o items frames t = some (.go items' frames', rest) ∧
        Doomed o rest) : Doomed o cs := by
  intro n items frames
  cases n with
  | zero => rfl
  | succ n =>
    unfold readClassWithin
    rw [hskip]
    rcases h items frames with hnone | ⟨items', frames', rest, hgo, hrest⟩
    · rw [hnone]
    · rw [hgo]
      exact hrest n items' frames'

theorem Spent.doomed {α : Type} {x : α} (h : Spent o x rest) : Doomed o rest := by
  rcases h with rfl | rfl | ⟨cs, rfl, hskip⟩
  · exact doomed_nil
  · exact doomed_of_not_mem (by decide)
  · refine doomed_of_go (skip_brace cs) fun items frames => ?_
    rw [readClassTurn_item (by decide) (by decide) (by simp)]
    have hitem : readClassItem o ('\x7b' :: cs) =
        (itemOfAtom? o (.char '\x7b' false)).map (·, closing) := by
      show readItemFrom o (.char '\x7b' false) cs = _
      unfold readItemFrom
      rw [hskip]
      rfl
    rw [hitem]
    cases itemOfAtom? o (.char '\x7b' false) with
    | none => exact .inl rfl
    | some s => exact .inr ⟨_, _, closing, rfl, doomed_closing⟩

/-! ### Items -/

/-- Either the same is read and the end is left, or no class can be closed where reading stops. -/
def Held {α : Type} (o : Options) (r r' : Option (α × List Char)) : Prop :=
  (∃ x rest, r = some (x, rest) ∧ r' = some (x, rest ++ closing)) ∨
  (∀ x rest, r = some (x, rest) → Doomed o rest) ∧ ∀ x rest, r' = some (x, rest) → Doomed o rest

section Held

variable {α β : Type} {r r' : Option (α × List Char)}

theorem held_none : Held o (none : Option (α × List Char)) none := .inr ⟨nofun, nofun⟩

theorem Kept.held (h : Kept (Spent o) r r') : Held o r r' := by
  cases h with
  | read x rest => exact .inl ⟨x, rest, rfl, rfl⟩
  | drained x =>
    refine .inr ⟨fun _ _ h => ?_, fun _ _ h => ?_⟩
    · cases h
      exact doomed_nil
    · cases h
      exact doomed_nil
  | failed => exact held_none
  | strayed hrest =>
    refine .inr ⟨nofun, fun _ _ h => ?_⟩
    cases h
    exact hrest.doomed

/-- What is made of a result, as long as the rest is left alone. -/
theorem Held.map {f : α → β} (h : Held o r r') :
    Held o (r.map fun p => (f p.1, p.2)) (r'.map fun p => (f p.1, p.2)) := by
  rcases h with ⟨x, rest, rfl, rfl⟩ | ⟨h, h'⟩
  · exact .inl ⟨_, _, rfl, rfl⟩
  · refine .inr ⟨fun y rest hy => ?_, fun y rest hy => ?_⟩
    · obtain ⟨⟨x, rest'⟩, hx, hy⟩ := Option.map_eq_some_iff.mp hy
      cases hy
      exact h x _ hx
    · obtain ⟨⟨x, rest'⟩, hx, hy⟩ := Option.map_eq_some_iff.mp hy
      cases hy
      exact h' x _ hx

/-- Results are compared after a part that was read the same, or where no class can be closed. -/
theorem Kept.bind_held {f : α × List Char → Option (β × List Char)} (h : Kept (Spent o) r r')
    (hread : ∀ x (rest : List Char), Held o (f (x, rest)) (f (x, rest ++ closing)))
    (hnil : ∀ x, f (x, []) = none)
    (hspent : ∀ x (rest : List Char), Spent o x rest → ∀ y after, f (x, rest) = some (y, after) →
      Doomed o after) : Held o (r.bind f) (r'.bind f) := by
  cases h with
  | read x rest => exact hread x rest
  | drained x =>
    show Held o (f (x, [])) (f (x, []))
    rw [hnil]
    exact held_none
  | failed => exact held_none
  | strayed hrest => exact .inr ⟨nofun, hspent _ _ hrest⟩

end Held

theorem kept_readClassAtom (cs : List Char) :
    Kept (Spent o) (readClassAtom o cs) (readClassAtom o (cs ++ closing)) := by
  cases cs with
  | nil => exact .strayed (.inr (.inl rfl))
  | cons c cs =>
    rw [List.cons_append]
    by_cases hc : c = '\\'
    · subst hc
      exact kept_readEscape cs
    · have hchar : ∀ t, readClassAtom o (c :: t) = some (.char c false, t) := by
        intro t
        unfold readClassAtom
        split
        all_goals simp_all
      rw [hchar, hchar]
      exact .read _ _

theorem kept_readRangeEnd (first : Atom) (cs : List Char) :
    Kept (Spent o) (readRangeEnd o first cs) (readRangeEnd o first (cs ++ closing)) := by
  refine (kept_readClassAtom cs).choose fun last => ?_
  by_cases h : ∃ a b, rangeEnd? o first = some a ∧ rangeEnd? o last = some b ∧ a ≤ b
  · obtain ⟨a, b, ha, hb, hle⟩ := h
    exact .inr ⟨.range a b, fun _ => by simp [ha, hb, hle], fun _ h => h⟩
  · refine .inl fun rest => ?_
    rw [Option.eq_none_iff_forall_ne_some]
    intro r hr
    obtain ⟨a, ha, hr⟩ := Option.bind_eq_some_iff.mp hr
    obtain ⟨b, hb, hr⟩ := Option.bind_eq_some_iff.mp hr
    split_ifs at hr with hle
    exact h ⟨a, b, ha, hb, hle⟩

theorem mem_dropWhile_blank (h : ']' ∈ cs) : ']' ∈ cs.dropWhile Unicode.isWhiteSpace := by
  rw [← List.takeWhile_append_dropWhile (p := Unicode.isWhiteSpace) (l := cs)] at h
  rcases List.mem_append.mp h with h | h
  · exact absurd (List.mem_takeWhile_imp h) (by decide)
  · exact h

theorem dropWhile_blank_append (h : ']' ∈ cs) :
    (cs ++ closing).dropWhile Unicode.isWhiteSpace =
      cs.dropWhile Unicode.isWhiteSpace ++ closing := by
  rw [List.dropWhile_append, if_neg]
  rw [List.isEmpty_iff]
  exact List.ne_nil_of_mem (mem_dropWhile_blank h)

theorem head?_append_closing (h : ']' ∈ cs) : (cs ++ closing).head? = cs.head? := by
  cases cs with
  | nil => cases h
  | cons c cs => rfl

/-- The end does not change what is seen past a hyphen, if the class is closed behind it. -/
theorem peekPast_append (h : ']' ∈ cs) : peekPast o (cs ++ closing) = peekPast o cs := by
  unfold peekPast
  split_ifs
  · have hmem := mem_dropWhile_blank h
    rw [dropWhile_blank_append h]
    generalize cs.dropWhile Unicode.isWhiteSpace = t at hmem ⊢
    cases t with
    | nil => cases hmem
    | cons c t =>
      by_cases hc : c = '#'
      · subst hc
        have ht : ']' ∈ t := (List.mem_cons.mp hmem).resolve_left (by decide)
        show ((t ++ closing).dropWhile Unicode.isWhiteSpace).head? =
          (t.dropWhile Unicode.isWhiteSpace).head?
        rw [dropWhile_blank_append ht, head?_append_closing (mem_dropWhile_blank ht)]
      · rw [List.cons_append]
        split
        · simp_all
        · split
          · simp_all
          · rfl
  · exact head?_append_closing h

/-- What is read from here on holds no bracket, so it ends where no class can be closed. -/
theorem held_of_suffix {α : Type} {r r' : Option (α × List Char)} {t t' : List Char}
    (ht : ']' ∉ t) (ht' : ']' ∉ t') (h : ∀ x rest, r = some (x, rest) → rest <:+ t)
    (h' : ∀ x rest, r' = some (x, rest) → rest <:+ t') : Held o r r' :=
  .inr ⟨fun x rest hx => doomed_of_not_mem (not_mem_of_suffix (h x rest hx) ht),
    fun x rest hx => doomed_of_not_mem (not_mem_of_suffix (h' x rest hx) ht')⟩

theorem not_mem_append_closing (h : ']' ∉ cs) : ']' ∉ cs ++ closing := by
  simp [h]

/-- An item that a hyphen does not go on. -/
theorem readItemFrom_eq {first : Atom} {c : Char} {t : List Char} (hskip : o.skip cs = c :: t)
    (hc : c ≠ '-') : readItemFrom o first cs = (itemOfAtom? o first).map (·, c :: t) := by
  unfold readItemFrom
  rw [hskip]
  split
  · rename_i heq
    cases heq
  · rename_i heq
    cases heq
    exact absurd rfl hc
  · rfl

theorem readItemFrom_hyphen {first : Atom} {t : List Char} (hskip : o.skip cs = '-' :: t) :
    readItemFrom o first cs =
      if peekPast o t = some ']' || peekPast o t = some '-' then
        (itemOfAtom? o first).map (·, '-' :: t)
      else readRangeEnd o first (o.skip t) := by
  unfold readItemFrom
  rw [hskip]
  rfl

theorem held_readItemFrom (first : Atom) (cs : List Char) :
    Held o (readItemFrom o first cs) (readItemFrom o first (cs ++ closing)) := by
  by_cases hmem : ']' ∈ o.skip cs
  · obtain ⟨c, t, ht⟩ := List.exists_cons_of_ne_nil (List.ne_nil_of_mem hmem)
    rcases skip_append o cs with hskip | ⟨hskip, -⟩
    · rw [ht, List.cons_append] at hskip
      have hsame : Held o ((itemOfAtom? o first).map (·, c :: t))
          ((itemOfAtom? o first).map (·, c :: (t ++ closing))) := by
        cases itemOfAtom? o first with
        | none => exact held_none
        | some s => exact .inl ⟨s, c :: t, rfl, rfl⟩
      by_cases hc : c = '-'
      · subst hc
        rw [ht] at hmem
        rw [readItemFrom_hyphen ht, readItemFrom_hyphen hskip,
          peekPast_append ((List.mem_cons.mp hmem).resolve_left (by decide))]
        split_ifs
        · exact hsame
        · exact (Kept.skip (kept_readRangeEnd first) .failed o t).held
      · rw [readItemFrom_eq ht hc, readItemFrom_eq hskip hc]
        exact hsame
    · rw [hskip] at hmem
      cases hmem
  · refine held_of_suffix hmem ?_ (fun _ _ => suffix_readItemFrom) fun _ _ => suffix_readItemFrom
    rcases skip_append o cs with hskip | ⟨-, hskip⟩
    · rw [hskip]
      exact not_mem_append_closing hmem
    · rw [hskip]
      exact List.not_mem_nil

theorem held_readClassItem (cs : List Char) :
    Held o (readClassItem o cs) (readClassItem o (cs ++ closing)) := by
  refine (kept_readClassAtom cs).bind_held (fun first rest => held_readItemFrom first rest)
    (fun first => ?_) fun first rest hspent s after h => ?_
  · show readItemFrom o first [] = none
    unfold readItemFrom
    rw [skip_nil]
  · have hafter := suffix_readItemFrom h
    rcases hspent with rfl | rfl | ⟨cs, rfl, hskip⟩
    · rw [skip_nil] at hafter
      exact doomed_of_not_mem (not_mem_of_suffix hafter (by decide))
    · rw [skip_anchor] at hafter
      exact doomed_of_not_mem (not_mem_of_suffix hafter (by decide))
    · change readItemFrom o first ('\x7b' :: cs) = _ at h
      rw [readItemFrom_eq (skip_brace cs) (by decide)] at h
      obtain ⟨_, -, h⟩ := Option.map_eq_some_iff.mp h
      cases h
      exact Spent.doomed (x := first) (.inr (.inr ⟨cs, rfl, hskip⟩))

/-! ### Turns -/

theorem readCaret_append (cs : List Char) :
    readCaret o (cs ++ closing) = ((readCaret o cs).1, (readCaret o cs).2 ++ closing) ∨
    (readCaret o cs).2 = [] ∧ readCaret o (cs ++ closing) = readCaret o cs := by
  unfold readCaret
  rcases skip_append o cs with hskip | ⟨hskip, hskip'⟩
  · rw [hskip]
    generalize o.skip cs = t
    cases t with
    | nil => exact .inl rfl
    | cons c t =>
      rw [List.cons_append]
      by_cases hc : c = '^'
      · subst hc
        rcases skip_append o t with hskip | ⟨hskip, hskip'⟩
        · exact .inl (by simp only [hskip])
        · exact .inr (by simp only [hskip, hskip', and_self])
      · left
        split
        · rename_i heq
          cases heq
          exact absurd rfl hc
        · split
          · rename_i heq
            cases heq
            exact absurd rfl hc
          · rfl
  · rw [hskip, hskip']
    exact .inr ⟨rfl, rfl⟩

section OpenClass

variable {b : Bool} {t hyphens r : List Char}

theorem openClass_nil (ht : (readCaret o cs).2 = t) (hspan : o.span (· == '-') t = (hyphens, [])) :
    openClass o cs = none := by
  subst ht
  unfold openClass
  dsimp only
  rw [hspan]

/-- A bracket at the very start stands for itself. -/
theorem openClass_bracket (ht : readCaret o cs = (b, t))
    (hspan : o.span (· == '-') t = ([], ']' :: r)) :
    openClass o cs =
      if o.skip r = [] then none else some ((b, [.ofSet (.single ']')]), o.skip r) := by
  cases hskip : o.skip r with
  | nil => simp only [openClass, ht, hspan, hskip, if_true]
  | cons c t => simp only [openClass, ht, hspan, hskip, reduceCtorEq, if_false]

theorem openClass_items {c : Char} (ht : readCaret o cs = (b, t))
    (hspan : o.span (· == '-') t = (hyphens, c :: r)) (hne : hyphens = [] → c ≠ ']') :
    openClass o cs = some ((b, hyphens.map fun c => .ofSet (.single c)), c :: r) := by
  unfold openClass
  rw [ht]
  dsimp only
  rw [hspan]
  split
  · rename_i heq
    cases heq
  · rename_i hhyphens heq
    cases heq
    exact absurd rfl (hne hhyphens)
  · rfl

end OpenClass

theorem held_openClass (cs : List Char) :
    Held o (openClass o cs) (openClass o (cs ++ closing)) := by
  generalize hr : readCaret o cs = r
  obtain ⟨b, t⟩ := r
  -- caret, hyphens and bracket are read in turn, and the text may end before each of them
  rcases readCaret_append (o := o) cs with hcaret | ⟨hnil, hcaret⟩
  · rw [hr] at hcaret
    generalize hs : o.span (· == '-') t = r
    obtain ⟨hyphens, r⟩ := r
    rcases span_append_before (o := o) (· == '-') t rfl with hspan | ⟨hnil, hspan⟩
    · rw [hs] at hspan
      cases r with
      | nil =>
        -- the class is open at the end of the text, and the closing has no bracket for it
        rw [openClass_nil (congrArg _ hr) hs, openClass_items hcaret hspan fun _ => by decide]
        refine .inr ⟨nofun, fun _ _ h => ?_⟩
        cases h
        exact doomed_closing
      | cons c r =>
        change _ = (hyphens, c :: (r ++ closing)) at hspan
        by_cases hc : hyphens = [] ∧ c = ']'
        · obtain ⟨rfl, rfl⟩ := hc
          rw [openClass_bracket hr hs, openClass_bracket hcaret hspan]
          rcases skip_append o r with hskip | ⟨hskip, hskip'⟩
          · rw [hskip, if_neg (c := o.skip r ++ closing = []) (by simp)]
            split_ifs with hnil
            · refine .inr ⟨nofun, fun _ _ h => ?_⟩
              cases h
              rw [hnil]
              exact doomed_closing
            · exact .inl ⟨_, _, rfl, rfl⟩
          · rw [if_pos hskip, if_pos hskip']
            exact held_none
        · have hne : hyphens = [] → c ≠ ']' := fun h hc' => hc ⟨h, hc'⟩
          rw [openClass_items hr hs hne, openClass_items hcaret hspan hne]
          exact .inl ⟨_, _, rfl, rfl⟩
    · rw [hs] at hnil hspan
      cases hnil
      rw [openClass_nil (congrArg _ hr) hs, openClass_nil (congrArg _ hcaret) hspan]
      exact held_none
  · rw [hr] at hnil hcaret
    cases hnil
    have hspan : ∃ hyphens, o.span (· == '-') [] = (hyphens, []) := ⟨[], rfl⟩
    obtain ⟨hyphens, hspan⟩ := hspan
    rw [openClass_nil (congrArg _ hr) hspan, openClass_nil (congrArg _ hcaret) hspan]
    exact held_none

/-! ### Named classes -/

theorem readPosixName_eq {c d : Char} {t : List Char}
    (hdrop : cs.dropWhile (· != ':') = c :: d :: t) :
    readPosixName cs = if c = ':' ∧ d = ']' then
      (CharClass.posix? (.ofList (cs.takeWhile (· != ':')))).map (·, t) else none := by
  unfold readPosixName
  rw [hdrop]
  split
  · rename_i heq
    cases heq
    rfl
  · rename_i hne
    rw [if_neg]
    rintro ⟨rfl, rfl⟩
    exact hne t rfl

theorem readPosixName_short (h : (cs.dropWhile (· != ':')).length ≤ 1) :
    readPosixName cs = none := by
  unfold readPosixName
  split
  · rename_i heq
    rw [heq, List.length_cons, List.length_cons] at h
    omega
  · rfl

theorem readPosixName_append (cs : List Char) :
    readPosixName (cs ++ closing) =
      (readPosixName cs).map fun (s, rest) => (s, rest ++ closing) := by
  rcases dropWhile_append_through (· != ':') cs rfl rfl with
    ⟨hne, hdrop, htake⟩ | ⟨hdrop, hdrop'⟩
  · rcases ht : cs.dropWhile (· != ':') with _ | ⟨c, _ | ⟨d, t⟩⟩
    · exact absurd ht hne
    · have hnone : readPosixName cs = none := readPosixName_short (by simp [ht])
      rw [ht] at hdrop
      rw [readPosixName_eq hdrop, if_neg (by simp), hnone]
      rfl
    · rw [ht] at hdrop
      rw [readPosixName_eq hdrop, readPosixName_eq ht, htake]
      split_ifs
      · cases CharClass.posix? (.ofList (cs.takeWhile (· != ':'))) with
        | none => rfl
        | some s => rfl
      · rfl
  · have hnone : readPosixName cs = none := readPosixName_short (by simp [hdrop])
    have hnone' : readPosixName (cs ++ closing) = none := readPosixName_short (by simp [hdrop'])
    rw [hnone, hnone']
    rfl

theorem readPosix_append (cs : List Char) :
    readPosix (cs ++ closing) = (readPosix cs).map fun (x, rest) => (x, rest ++ closing) := by
  have hnegate : ∀ {r : Option (CharSet × List Char)} (b : Bool),
      ((r.map fun (s, rest) => (s, rest ++ closing)).map fun (s, rest) => ((b, s), rest)) =
        ((r.map fun (s, rest) => ((b, s), rest)).map fun (x, rest) => (x, rest ++ closing)) := by
    intro r b
    cases r with
    | none => rfl
    | some _ => rfl
  rcases cs with _ | ⟨c, cs⟩
  · rfl
  · by_cases hc : c = ':'
    · subst hc
      rcases cs with _ | ⟨d, cs⟩
      · decide
      · by_cases hd : d = '^'
        · subst hd
          show (readPosixName (cs ++ closing)).map _ = _
          rw [readPosixName_append]
          exact hnegate true
        · have hplain : ∀ t, readPosix (':' :: d :: t) =
              (readPosixName (d :: t)).map fun (s, rest) => ((false, s), rest) := by
            intro t
            unfold readPosix
            split
            all_goals simp_all
          rw [List.cons_append, List.cons_append, hplain, hplain, ← List.cons_append,
            readPosixName_append]
          exact hnegate false
    · have hnone : ∀ t, readPosix (c :: t) = none := by
        intro t
        unfold readPosix
        split
        all_goals simp_all
      rw [List.cons_append, hnone, hnone]
      rfl

/-! ### Whole classes -/

section Turn

variable (items : List Nested) (frames : List ClassFrame)

theorem readClassTurn_named {negated : Bool} {set : CharSet}
    (h : readPosix cs = some ((negated, set), rest)) :
    readClassTurn o items frames ('[' :: cs) =
      (o.finishSet negated set).map fun s => (.go (.ofSet s :: items) frames, rest) := by
  simp only [readClassTurn, h]

theorem readClassTurn_open (h : readPosix cs = none) :
    readClassTurn o items frames ('[' :: cs) = (openClass o cs).map fun p =>
      (.go p.1.2 (.outer p.1.1 items :: frames), p.2) := by
  simp only [readClassTurn, h]

/-- A turn that takes its characters, whatever follows them. -/
theorem held_of_taken {t : Option ClassTurn} (rest : List Char) :
    Held o (t.map (·, rest)) (t.map (·, rest ++ closing)) := by
  cases t with
  | none => exact held_none
  | some t => exact .inl ⟨t, rest, rfl, rfl⟩

theorem held_readClassTurn (cs : List Char) :
    Held o (readClassTurn o items frames cs) (readClassTurn o items frames (cs ++ closing)) := by
  cases cs with
  | nil =>
    refine held_of_suffix (show ']' ∉ [] from List.not_mem_nil) (show ']' ∉ closing.tail by decide)
      (fun _ _ h => by cases h) fun _ _ h => suffix_readClassTurn h
  | cons c cs =>
    rw [List.cons_append]
    by_cases hopen : c = '['
    · subst hopen
      cases hposix : readPosix cs with
      | none =>
        rw [readClassTurn_open items frames hposix, readClassTurn_open items frames
          (by rw [readPosix_append, hposix]; rfl)]
        exact (held_openClass cs).map
          (f := fun x => ClassTurn.go x.2 (.outer x.1 items :: frames))
      | some r =>
        obtain ⟨⟨negated, set⟩, rest⟩ := r
        rw [readClassTurn_named items frames hposix, readClassTurn_named items frames
          (by rw [readPosix_append, hposix]; rfl)]
        cases o.finishSet negated set with
        | none => exact held_none
        | some s => exact .inl ⟨_, rest, rfl, rfl⟩
    · by_cases hclose : c = ']'
      · subst hclose
        exact held_of_taken cs
      · by_cases hop : c ∈ ['&', '-', '~'] ∧ cs.head? = some c
        · obtain ⟨hop, hhead⟩ := hop
          obtain ⟨t, rfl⟩ := List.head?_eq_some_iff.mp hhead
          simp only [List.mem_cons, List.not_mem_nil, or_false] at hop
          rcases hop with rfl | rfl | rfl
          · exact held_of_taken t
          · exact held_of_taken t
          · exact held_of_taken t
        · -- at the end of the text a parenthesis follows, which doubles no operator
          have hhead : c ∈ ['&', '-', '~'] → (cs ++ closing).head? ≠ some c := by
            intro h heq
            cases cs with
            | nil =>
              cases heq
              exact absurd h (by decide)
            | cons d cs => exact hop ⟨h, heq⟩
          rw [readClassTurn_item hopen hclose fun h heq => hop ⟨h, heq⟩,
            readClassTurn_item hopen hclose hhead]
          exact (held_readClassItem (c :: cs)).map
            (f := fun s => ClassTurn.go (.ofSet s :: items) frames)

end Turn

/-- A class is not closed by a turn that takes something else than a bracket and leads to where no
class can be closed. -/
theorem readClassWithin_eq_none {n : Nat} (hclose : ∀ t, o.skip cs ≠ ']' :: t)
    (hrest : ∀ turn rest, readClassTurn o items frames (o.skip cs) = some (turn, rest) →
      Doomed o rest) : readClassWithin o n items frames cs = none := by
  cases n with
  | zero => rfl
  | succ n =>
    unfold readClassWithin
    cases hturn : readClassTurn o items frames (o.skip cs) with
    | none => rfl
    | some r =>
      obtain ⟨turn, rest⟩ := r
      cases turn with
      | closed whole =>
        obtain ⟨t, ht⟩ := eq_cons_of_closed hturn
        exact absurd ht (hclose t)
      | go items' frames' => exact hrest _ _ hturn n items' frames'

theorem readClassTurn_bracket (items : List Nested) (frames : List ClassFrame) (t : List Char) :
    readClassTurn o items frames (']' :: t) = (turnClose o items frames).map (·, t) := rfl

/-- A turn takes at least one character. -/
theorem length_lt_of_readClassTurn {turn : ClassTurn} {rest : List Char}
    (h : readClassTurn o items frames (o.skip cs) = some (turn, rest)) :
    rest.length < cs.length := by
  have hskip := (skip_suffix o cs).length_le
  cases ht : o.skip cs with
  | nil =>
    rw [ht] at h
    cases h
  | cons c t =>
    rw [ht] at h hskip
    exact Nat.lt_of_le_of_lt (suffix_readClassTurn h).length_le hskip

/-- The end is left behind a class. Every turn takes a character, so it does not matter how much
fuel there is beyond the text. -/
theorem readClassWithin_append {n m : Nat} (hn : cs.length < n) (hm : cs.length + 2 < m) :
    readClassWithin o m items frames (cs ++ closing) =
      (readClassWithin o n items frames cs).map fun p => (p.1, p.2 ++ closing) := by
  induction n generalizing m items frames cs with
  | zero => omega
  | succ n ih =>
    obtain ⟨m, rfl⟩ : ∃ k, m = k + 1 := ⟨m - 1, by omega⟩
    -- a turn that takes the same leaves shorter texts
    have hsame : ∀ {turn : ClassTurn} {rest : List Char},
        readClassTurn o items frames (o.skip cs) = some (turn, rest) →
        readClassTurn o items frames (o.skip (cs ++ closing)) = some (turn, rest ++ closing) →
        readClassWithin o (m + 1) items frames (cs ++ closing) =
          (readClassWithin o (n + 1) items frames cs).map fun p => (p.1, p.2 ++ closing) := by
      intro turn rest hturn hturn'
      unfold readClassWithin
      rw [hturn, hturn']
      cases turn with
      | closed whole => rfl
      | go items' frames' =>
        have hlen := length_lt_of_readClassTurn hturn
        exact ih (by omega) (by omega)
    rcases skip_append o cs with hskip | ⟨hskip, hskip'⟩
    · by_cases hclose : ∃ t, o.skip cs = ']' :: t
      · obtain ⟨t, ht⟩ := hclose
        have hold := readClassTurn_bracket (o := o) items frames t
        have hnew := readClassTurn_bracket (o := o) items frames (t ++ closing)
        rw [ht, List.cons_append] at hskip
        cases hturn : turnClose o items frames with
        | none =>
          rw [hturn] at hold hnew
          unfold readClassWithin
          rw [hskip, ht, hold, hnew]
          rfl
        | some turn =>
          rw [hturn] at hold hnew
          exact hsame (ht ▸ hold) (hskip ▸ hnew)
      · rw [not_exists] at hclose
        rcases held_readClassTurn items frames (o.skip cs) with
          ⟨turn, rest, hturn, hturn'⟩ | ⟨hrest, hrest'⟩
        · exact hsame hturn (hskip ▸ hturn')
        · rw [readClassWithin_eq_none hclose hrest, readClassWithin_eq_none
            (skip_append_ne (by decide) hclose) (hskip ▸ hrest')]
          rfl
    · unfold readClassWithin
      rw [hskip, hskip']
      rfl

/-- A closing parenthesis and an anchor behind a class do not change how it is read. -/
theorem readClass_append (cs : List Char) :
    readClass o (cs ++ closing) = (readClass o cs).map fun p => (p.1, p.2 ++ closing) := by
  unfold readClass
  rcases held_openClass (o := o) cs with ⟨x, rest, hopen, hopen'⟩ | ⟨hdoomed, hdoomed'⟩
  · rw [hopen, hopen']
    exact readClassWithin_append (Nat.lt_succ_self _) (by simp)
  · have hnone : ∀ {r : Option ((Bool × List Nested) × List Char)},
        (∀ x rest, r = some (x, rest) → Doomed o rest) → (r.bind fun p =>
          readClassWithin o (p.2.length + 1) p.1.2 [.outer p.1.1 []] p.2) = none := by
      intro r h
      rw [Option.bind_eq_none_iff]
      intro p hp
      exact h p.1 p.2 hp _ _ _
    rw [hnone hdoomed]
    exact hnone hdoomed'

end Cohort.Regex
