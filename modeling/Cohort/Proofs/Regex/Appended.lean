import Cohort.Proofs.Regex.Rest

/-!
# Reading with more behind — a pattern in a group that is closed after it

What stands behind a pattern, a closing parenthesis and an anchor, does not change how the parts
of the pattern are read: `Kept` compares a reader without and with it. Either the same is read and
the end is left (`read`), or the pattern ends in a comment, which the end then belongs to
(`drained`), or nothing is read either way (`failed`), or a part that the pattern does not complete
takes the parenthesis for itself (`strayed`), after which nothing is left that closes a group.
-/

namespace Cohort.Regex

variable {o : Options} {cs : List Char}

/-- What follows a pattern in a group: the parenthesis that closes the group, and an anchor. -/
abbrev closing : List Char := [')', '$']

/-- A result without the end and one with it; `P` tells what is left where the end is taken for
something else. -/
inductive Kept {α : Type} (P : α → List Char → Prop) :
    Option (α × List Char) → Option (α × List Char) → Prop
  | read (x : α) (rest : List Char) : Kept P (some (x, rest)) (some (x, rest ++ closing))
  | drained (x : α) : Kept P (some (x, [])) (some (x, []))
  | failed : Kept P none none
  | strayed {x : α} {rest : List Char} (h : P x rest) : Kept P none (some (x, rest))

/-- The end is never taken for something else. -/
abbrev Never {α : Type} : α → List Char → Prop := fun _ _ => False

/-- What is left when the parenthesis is taken for something else. -/
abbrev Cut {α : Type} : α → List Char → Prop := fun _ rest => rest = [] ∨ rest = ['$']

section Kept

variable {α β : Type} {P P' : α → List Char → Prop} {Q : β → List Char → Prop}
  {r r' : Option (α × List Char)}

theorem Kept.mono (h : Kept P r r') (hP : ∀ x rest, P x rest → P' x rest) : Kept P' r r' := by
  cases h with
  | read x rest => exact .read x rest
  | drained x => exact .drained x
  | failed => exact .failed
  | strayed hrest => exact .strayed (hP _ _ hrest)

theorem Kept.map {f : α → β} (h : Kept P r r') (hP : ∀ x rest, P x rest → Q (f x) rest) :
    Kept Q (r.map fun p => (f p.1, p.2)) (r'.map fun p => (f p.1, p.2)) := by
  cases h with
  | read x rest => exact .read _ _
  | drained x => exact .drained _
  | failed => exact .failed
  | strayed hrest => exact .strayed (hP _ _ hrest)

theorem Kept.bind {f : α × List Char → Option (β × List Char)} (h : Kept P r r')
    (hread : ∀ x rest, Kept Q (f (x, rest)) (f (x, rest ++ closing)))
    (hdrained : ∀ x, Kept Q (f (x, [])) (f (x, [])))
    (hstrayed : ∀ x rest, P x rest → Kept Q none (f (x, rest))) :
    Kept Q (r.bind f) (r'.bind f) := by
  cases h with
  | read x rest => exact hread x rest
  | drained x => exact hdrained x
  | failed => exact .failed
  | strayed hrest => exact hstrayed _ _ hrest

end Kept

/-! ### Skipping and spans -/

theorem skipComments_append (b : Bool) (cs : List Char) :
    skipComments b (cs ++ closing) = skipComments b cs ++ closing ∨
    skipComments b cs = [] ∧ skipComments b (cs ++ closing) = [] := by
  induction cs generalizing b with
  | nil =>
    cases b with
    | true => exact .inr ⟨rfl, by decide⟩
    | false => exact .inl (by decide)
  | cons c cs ih =>
    simp only [List.cons_append, skipComments]
    split_ifs
    · exact ih _
    · exact ih _
    · exact ih _
    · exact .inl rfl

/-- The end is left when what means nothing is dropped, unless it belongs to a comment. -/
theorem skip_append (o : Options) (cs : List Char) :
    o.skip (cs ++ closing) = o.skip cs ++ closing ∨
    o.skip cs = [] ∧ o.skip (cs ++ closing) = [] := by
  unfold Options.skip
  split_ifs
  · exact skipComments_append false cs
  · exact .inl rfl

/-- The end does not put another character than the parenthesis in front. -/
theorem append_closing_ne {c : Char} (hc : c ≠ ')') (h : ∀ t, cs ≠ c :: t) :
    ∀ t, cs ++ closing ≠ c :: t := by
  cases cs with
  | nil =>
    intro t ht
    cases ht
    exact hc rfl
  | cons d cs =>
    intro t ht
    cases ht
    exact h cs rfl

theorem skip_append_ne {c : Char} (hc : c ≠ ')') (h : ∀ t, o.skip cs ≠ c :: t) :
    ∀ t, o.skip (cs ++ closing) ≠ c :: t := by
  rcases skip_append o cs with hskip | ⟨-, hskip⟩
  · rw [hskip]
    exact append_closing_ne hc h
  · rw [hskip]
    exact nofun

theorem skip_closing (o : Options) : o.skip closing = closing := by
  unfold Options.skip
  split_ifs
  · decide
  · rfl

theorem skip_anchor (o : Options) : o.skip ['$'] = ['$'] := by
  unfold Options.skip
  split_ifs
  · decide
  · rfl

theorem skip_nil (o : Options) : o.skip [] = [] := by
  unfold Options.skip
  split_ifs
  · rfl
  · rfl

/-- A reader that drops what means nothing before it reads. -/
theorem Kept.skip {α : Type} {P : α → List Char → Prop} {R : Reader α}
    (h : ∀ t, Kept P (R t) (R (t ++ closing))) (hnil : Kept P (R []) (R [])) (o : Options)
    (cs : List Char) : Kept P (R (o.skip cs)) (R (o.skip (cs ++ closing))) := by
  rcases skip_append o cs with hskip | ⟨hskip, hskip'⟩
  · rw [hskip]
    exact h _
  · rw [hskip, hskip']
    exact hnil

/-- What is made of a result does not matter, as long as of the rest only what means nothing is
dropped. -/
theorem Kept.choose_skip {α β : Type} {P : α → List Char → Prop} {Q : β → List Char → Prop}
    {r r' : Option (α × List Char)} {f : α × List Char → Option (β × List Char)} (o : Options)
    (h : Kept P r r')
    (hf : ∀ x, (∀ rest, f (x, rest) = none) ∨ ∃ y, (∀ rest, f (x, rest) = some (y, o.skip rest)) ∧
      ∀ rest, P x rest → Q y (o.skip rest)) :
    Kept Q (r.bind f) (r'.bind f) := by
  refine h.bind (fun x rest => ?_) (fun x => ?_) fun x rest hrest => ?_
  all_goals rcases hf x with hnone | ⟨y, hsome, hstrayed⟩
  · rw [hnone, hnone]
    exact .failed
  · rw [hsome, hsome]
    exact Kept.skip (R := fun t => some (y, t)) (fun t => .read y t) (.drained y) o rest
  · rw [hnone]
    exact .failed
  · rw [hsome, skip_nil]
    exact .drained y
  · rw [hnone]
    exact .failed
  · rw [hsome]
    exact .strayed (hstrayed rest hrest)

/-- What is made of a result does not matter, as long as the rest is left alone. -/
theorem Kept.choose {α β : Type} {P : α → List Char → Prop} {Q : β → List Char → Prop}
    {r r' : Option (α × List Char)} {f : α × List Char → Option (β × List Char)} (h : Kept P r r')
    (hf : ∀ x, (∀ rest, f (x, rest) = none) ∨ ∃ y, (∀ rest, f (x, rest) = some (y, rest)) ∧
      ∀ rest, P x rest → Q y rest) :
    Kept Q (r.bind f) (r'.bind f) :=
  h.choose_skip {} hf

section Span

variable (p : Char → Bool)

theorem spanWithin_nil (n : Nat) : o.spanWithin p n [] = ([], []) := by
  cases n <;> rfl

theorem spanWithin_cons (n : Nat) (c : Char) (cs : List Char) :
    o.spanWithin p (n + 1) (c :: cs) =
      if p c then
        (c :: (o.spanWithin p n (o.skip cs)).1, (o.spanWithin p n (o.skip cs)).2)
      else ([], c :: cs) := rfl

/-- A span that ends within the text is the same; one that reaches the end of the text goes on,
unless a comment keeps it from the end. -/
theorem spanWithin_append {n m : Nat} (hn : cs.length ≤ n) (hm : cs.length + 2 ≤ m) :
    ((o.spanWithin p n cs).2 ≠ [] ∧ o.spanWithin p m (cs ++ closing) =
      ((o.spanWithin p n cs).1, (o.spanWithin p n cs).2 ++ closing)) ∨
    ((o.spanWithin p n cs).2 = [] ∧ ∃ k, o.spanWithin p m (cs ++ closing) =
      ((o.spanWithin p n cs).1 ++ (o.spanWithin p (k + 2) closing).1,
        (o.spanWithin p (k + 2) closing).2)) ∨
    ((o.spanWithin p n cs).2 = [] ∧
      o.spanWithin p m (cs ++ closing) = ((o.spanWithin p n cs).1, [])) := by
  -- the fuels differ, but neither is used up before its text
  induction n generalizing cs m with
  | zero =>
    obtain rfl : cs = [] := List.eq_nil_of_length_eq_zero (Nat.le_zero.mp hn)
    obtain ⟨k, rfl⟩ : ∃ k, m = k + 2 := ⟨m - 2, by simp at hm; omega⟩
    exact .inr (.inl ⟨rfl, k, rfl⟩)
  | succ n ih =>
    cases cs with
    | nil =>
      obtain ⟨k, rfl⟩ : ∃ k, m = k + 2 := ⟨m - 2, by simp at hm; omega⟩
      exact .inr (.inl ⟨by rw [spanWithin_nil], k, by rw [spanWithin_nil]; rfl⟩)
    | cons c cs =>
      rw [List.length_cons] at hn hm
      obtain ⟨m, rfl⟩ : ∃ k, m = k + 1 := ⟨m - 1, by omega⟩
      rw [List.cons_append, spanWithin_cons, spanWithin_cons]
      split_ifs
      · have hlen := (skip_suffix o cs).length_le
        rcases skip_append o cs with hskip | ⟨hskip, hskip'⟩
        · rw [hskip]
          rcases @ih (o.skip cs) m (by omega) (by omega) with
            ⟨hne, heq⟩ | ⟨hnil, k, heq⟩ | ⟨hnil, heq⟩
          · exact .inl ⟨hne, by rw [heq]⟩
          · exact .inr (.inl ⟨hnil, k, by rw [heq]; rfl⟩)
          · exact .inr (.inr ⟨hnil, by rw [heq]⟩)
        · rw [hskip, hskip', spanWithin_nil, spanWithin_nil]
          exact .inr (.inr ⟨rfl, rfl⟩)
      · exact .inl ⟨List.cons_ne_nil _ _, rfl⟩

/-- A span of other characters than the end's leaves the end. -/
theorem span_append_before (cs : List Char) (hp : p ')' = false) :
    o.span p (cs ++ closing) = ((o.span p cs).1, (o.span p cs).2 ++ closing) ∨
    (o.span p cs).2 = [] ∧ o.span p (cs ++ closing) = ((o.span p cs).1, []) := by
  have hclosing : ∀ k, o.spanWithin p (k + 2) closing = ([], closing) := by
    intro k
    rw [spanWithin_cons, hp]
    rfl
  unfold Options.span
  have hlen : cs.length + 2 ≤ (cs ++ closing).length := by simp
  rcases spanWithin_append (o := o) p (Nat.le_refl cs.length) hlen with
    ⟨-, heq⟩ | ⟨hnil, k, heq⟩ | ⟨hnil, heq⟩
  · exact .inl heq
  · rw [hclosing, List.append_nil] at heq
    exact .inl (by rw [heq, hnil]; rfl)
  · exact .inr ⟨hnil, heq⟩

/-- A span that the end belongs to stops before it or takes all of it. -/
theorem span_append_through (cs : List Char) (hp : p ')' = true) (hp' : p '$' = true) :
    ((o.span p cs).2 ≠ [] ∧
      o.span p (cs ++ closing) = ((o.span p cs).1, (o.span p cs).2 ++ closing)) ∨
    ((o.span p cs).2 = [] ∧ (o.span p (cs ++ closing)).2 = []) := by
  have hclosing : ∀ k, (o.spanWithin p (k + 2) closing).2 = [] := by
    intro k
    rw [spanWithin_cons, hp, if_pos rfl, skip_anchor, spanWithin_cons, hp', if_pos rfl, skip_nil,
      spanWithin_nil]
  unfold Options.span
  have hlen : cs.length + 2 ≤ (cs ++ closing).length := by simp
  rcases spanWithin_append (o := o) p (Nat.le_refl cs.length) hlen with
    hsame | ⟨hnil, k, heq⟩ | ⟨hnil, heq⟩
  · exact .inl hsame
  · exact .inr ⟨hnil, by rw [heq, hclosing]⟩
  · exact .inr ⟨hnil, by rw [heq]⟩

/-- Characters up to one that the end does not hold. -/
theorem dropWhile_append_through (cs : List Char) (hp : p ')' = true)
    (hp' : p '$' = true) :
    (cs.dropWhile p ≠ [] ∧ (cs ++ closing).dropWhile p = cs.dropWhile p ++ closing ∧
      (cs ++ closing).takeWhile p = cs.takeWhile p) ∨
    cs.dropWhile p = [] ∧ (cs ++ closing).dropWhile p = [] := by
  induction cs with
  | nil => exact .inr ⟨rfl, by simp [hp, hp']⟩
  | cons c cs ih =>
    rw [List.cons_append]
    simp only [List.dropWhile_cons, List.takeWhile_cons]
    split_ifs
    · exact ih.imp (fun ⟨hne, h, h'⟩ => ⟨hne, h, by rw [h']⟩) id
    · exact .inl ⟨List.cons_ne_nil _ _, rfl, rfl⟩

end Span

/-! ### Escapes -/

theorem kept_readHexDigits (n value : Nat) (cs : List Char) :
    Kept Never (readHexDigits o n value cs) (readHexDigits o n value (cs ++ closing)) := by
  induction n generalizing value cs with
  | zero => exact .read _ _
  | succ n ih =>
    cases cs with
    | nil => exact .failed
    | cons c cs =>
      rw [List.cons_append]
      unfold readHexDigits
      cases Text.hexDigit? c with
      | none => exact .failed
      | some d =>
        refine Kept.skip (ih _) ?_ o cs
        cases n with
        | zero => exact .drained _
        | succ n => exact .failed

theorem kept_readBraced (o : Options) (cs : List Char) :
    Kept Never (readBraced o cs) (readBraced o (cs ++ closing)) := by
  unfold readBraced
  rcases skip_append o cs with hskip | ⟨hskip, hskip'⟩
  · rw [hskip]
    rcases span_append_through (o := o) (· != '\x7d') (o.skip cs) rfl rfl with
      ⟨hne, heq⟩ | ⟨hnil, hnil'⟩
    · rw [heq]
      generalize o.span (· != '\x7d') (o.skip cs) = r at hne ⊢
      obtain ⟨inside, rest⟩ := r
      cases rest with
      | nil => exact absurd rfl hne
      | cons c rest => exact .read _ _
    · generalize o.span (· != '\x7d') (o.skip cs) = r at hnil ⊢
      generalize o.span (· != '\x7d') (o.skip cs ++ closing) = r' at hnil' ⊢
      obtain ⟨inside, rest⟩ := r
      obtain ⟨inside', rest'⟩ := r'
      cases hnil
      cases hnil'
      exact .failed
  · rw [hskip, hskip']
    exact .failed

theorem kept_readHex (width : Nat) (cs : List Char) :
    Kept Never (readHex o width cs) (readHex o width (cs ++ closing)) := by
  -- with braces and without, the digits have to number a character
  have hdigits : ∀ {r r'}, Kept Never r r' → Kept Never
      (r.bind fun p => (charOf? p.1).map fun c => (Atom.char c (width == 2), p.2))
      (r'.bind fun p => (charOf? p.1).map fun c => (Atom.char c (width == 2), p.2)) := by
    refine fun h => h.choose fun n => ?_
    cases hn : charOf? n with
    | none => exact .inl fun _ => by simp [hn]
    | some c => exact .inr ⟨_, fun _ => by simp [hn]; rfl, fun _ h => h⟩
  have hbraced : ∀ {r r'}, Kept Never r r' → Kept Never
      (r.bind fun p => ((Text.number? Text.hexDigit? 16 p.1).bind charOf?).map
        fun c => (Atom.char c false, o.skip p.2))
      (r'.bind fun p => ((Text.number? Text.hexDigit? 16 p.1).bind charOf?).map
        fun c => (Atom.char c false, o.skip p.2)) := by
    refine fun h => h.choose_skip o fun digits => ?_
    cases hn : (Text.number? Text.hexDigit? 16 digits).bind charOf? with
    | none => exact .inl fun _ => by simp [hn]
    | some c => exact .inr ⟨_, fun _ => by simp [hn]; rfl, fun _ h => h⟩
  unfold readHex
  rcases skip_append o cs with hskip | ⟨hskip, hskip'⟩
  · rw [hskip]
    generalize o.skip cs = t
    cases t with
    | nil => exact hdigits (kept_readHexDigits width 0 [])
    | cons c t =>
      rw [List.cons_append]
      split
      · rename_i heq
        cases heq
        exact hbraced (kept_readBraced o t)
      · rename_i hne
        split
        · rename_i heq
          cases heq
          exact absurd rfl (hne t)
        · exact hdigits (kept_readHexDigits width 0 (c :: t))
  · rw [hskip, hskip']
    refine hdigits (r := readHexDigits o width 0 []) ?_
    cases width with
    | zero => exact .drained _
    | succ n => exact .failed

theorem kept_readPropertyName (cs : List Char) :
    Kept Cut (readPropertyName o cs) (readPropertyName o (cs ++ closing)) := by
  unfold readPropertyName
  rcases skip_append o cs with hskip | ⟨hskip, hskip'⟩
  · rw [hskip]
    generalize o.skip cs = t
    cases t with
    | nil =>
      -- the parenthesis would be the letter
      show Kept Cut none ((PropertyName.set? [')']).map fun s => ((false, s), o.skip ['$']))
      rw [skip_anchor]
      cases PropertyName.set? [')'] with
      | none => exact .failed
      | some s => exact .strayed (.inr rfl)
    | cons c t =>
      rw [List.cons_append]
      split
      · rename_i heq
        cases heq
        refine (kept_readBraced o t).choose fun name => ?_
        cases hn : PropertyName.inBraces? name with
        | none => exact .inl fun _ => by simp [hn]
        | some s => exact .inr ⟨_, fun _ => by simp [hn]; rfl, fun _ h => h.elim⟩
      · rename_i heq
        cases heq
        exact .failed
      · rename_i hbrace hslash heq
        cases heq
        split
        · rename_i heq
          cases heq
          exact absurd rfl hbrace
        · rename_i heq
          cases heq
          exact absurd rfl hslash
        · rename_i heq
          cases heq
          cases PropertyName.set? [c] with
          | none => exact .failed
          | some s =>
            exact Kept.skip (R := fun t => some ((false, s), t)) (fun t => .read _ t)
              (.drained _) o t
        · rename_i heq
          cases heq
      · rename_i heq
        cases heq
  · rw [hskip, hskip']
    exact .failed

theorem kept_readProperty (negated : Bool) (cs : List Char) :
    Kept Cut (readProperty o negated cs) (readProperty o negated (cs ++ closing)) := by
  refine (kept_readPropertyName cs).choose fun x => ?_
  obtain ⟨opposite, s⟩ := x
  cases hu : o.unicode with
  | false => exact .inl fun _ => by simp
  | true =>
    cases hs : o.finishSet (negated != opposite) s with
    | none => exact .inl fun _ => by simp [hs]
    | some s => exact .inr ⟨.set s, fun _ => by simp [hs], fun _ h => h⟩

theorem kept_readEdgeName (cs : List Char) :
    Kept Never (readEdgeName o cs) (readEdgeName o (cs ++ closing)) := by
  unfold readEdgeName
  rcases span_append_before (o := o) isEdgeChar cs rfl with heq | ⟨hnil, heq⟩
  · rw [heq]
    generalize o.span isEdgeChar cs = r
    obtain ⟨name, rest⟩ := r
    cases rest with
    | nil => exact .failed
    | cons c rest =>
      dsimp only
      rw [List.cons_append]
      split
      · rename_i h
        cases h
        show Kept Never ((edgeOfName? (.ofList name)).map (·, rest))
          ((edgeOfName? (.ofList name)).map (·, rest ++ closing))
        cases edgeOfName? (.ofList name) with
        | none => exact .failed
        | some e => exact .read _ _
      · rename_i hne
        split
        · rename_i h
          cases h
          exact absurd rfl (hne name rest)
        · exact .failed
  · rw [heq]
    generalize o.span isEdgeChar cs = r at hnil ⊢
    obtain ⟨name, rest⟩ := r
    cases hnil
    exact .failed

/-- What can be left of an escape: a brace is left for a count, which the parenthesis does not
start. -/
def Spent {α : Type} (o : Options) : α → List Char → Prop := fun _ rest =>
  rest = [] ∨ rest = ['$'] ∨ ∃ cs, rest = '\x7b' :: cs ∧ o.skip cs = closing

theorem Spent.of_cut {α : Type} {x : α} {rest : List Char} (h : Cut x rest) : Spent o x rest :=
  h.imp id .inl

theorem kept_readEdge (cs : List Char) :
    Kept (Spent o) (readEdge o cs) (readEdge o (cs ++ closing)) := by
  cases cs with
  | nil => exact .read _ _
  | cons c cs =>
    rw [List.cons_append]
    by_cases hc : c = '\x7b'
    · subst hc
      unfold readEdge
      rcases skip_append o cs with hskip | ⟨hskip, hskip'⟩
      · simp only [hskip]
        cases ht : o.skip cs with
        | nil =>
          -- a brace at the end is left for a count, which the parenthesis does not start
          refine .strayed (.inr (.inr ⟨_, rfl, ?_⟩))
          rw [hskip, ht]
          rfl
        | cons d t =>
          dsimp only [List.cons_append]
          split_ifs
          · exact (kept_readEdgeName (d :: t)).mono fun _ _ h => h.elim
          · exact .read _ _
      · simp only [hskip, hskip']
        exact .failed
    · unfold readEdge
      split
      · rename_i heq
        cases heq
        exact absurd rfl hc
      · split
        · rename_i heq
          cases heq
          exact absurd rfl hc
        · exact .read _ _

/-- Most characters need nothing behind them. -/
theorem readEscape_cons {c : Char} (hc : c ∉ ['x', 'u', 'U', 'p', 'P', 'b']) (cs : List Char) :
    readEscape o (c :: cs) = (escaped? o c).map (·, cs) := by
  unfold readEscape
  split
  all_goals simp_all

theorem kept_readEscape (cs : List Char) :
    Kept (Spent o) (readEscape o cs) (readEscape o (cs ++ closing)) := by
  cases cs with
  | nil => exact .strayed (.inr (.inl rfl))
  | cons c cs =>
    rw [List.cons_append]
    by_cases hc : c ∈ ['x', 'u', 'U', 'p', 'P', 'b']
    · simp only [List.mem_cons, List.not_mem_nil, or_false] at hc
      rcases hc with rfl | rfl | rfl | rfl | rfl | rfl
      · exact (kept_readHex 2 cs).mono fun _ _ h => h.elim
      · exact (kept_readHex 4 cs).mono fun _ _ h => h.elim
      · exact (kept_readHex 8 cs).mono fun _ _ h => h.elim
      · exact (kept_readProperty false cs).mono fun _ _ => .of_cut
      · exact (kept_readProperty true cs).mono fun _ _ => .of_cut
      · exact Kept.map (f := fun e => Atom.look (.word e o.unicode)) (kept_readEdge cs)
          fun _ _ h => h
    · rw [readEscape_cons hc, readEscape_cons hc]
      cases escaped? o c with
      | none => exact .failed
      | some a => exact .read _ _

end Cohort.Regex
