import Mathlib.Data.List.Basic
import Cohort.Regex.Reader

/-!
# What reading leaves — the end of the text that was given

Every part of a pattern is read off the front of a text, so that what is left is a suffix of it.
`suffix_step?` says so of whole parts: at least one character is taken, and reading comes to an end.
-/

namespace Cohort.Regex

variable {o : Options} {cs rest : List Char}

/-! ### Skipping and spans -/

theorem skipComments_suffix (b : Bool) (cs : List Char) : skipComments b cs <:+ cs := by
  induction cs generalizing b with
  | nil => exact List.suffix_refl _
  | cons c cs ih =>
    unfold skipComments
    split_ifs
    · exact (ih _).trans (List.suffix_cons c cs)
    · exact (ih _).trans (List.suffix_cons c cs)
    · exact (ih _).trans (List.suffix_cons c cs)
    · exact List.suffix_refl _

theorem skip_suffix (o : Options) (cs : List Char) : o.skip cs <:+ cs := by
  unfold Options.skip
  split_ifs
  · exact skipComments_suffix false cs
  · exact List.suffix_refl cs

theorem spanWithin_suffix (o : Options) (p : Char → Bool) (n : Nat) (cs : List Char) :
    (o.spanWithin p n cs).2 <:+ cs := by
  induction n generalizing cs with
  | zero => exact List.suffix_refl cs
  | succ n ih =>
    cases cs with
    | nil => exact List.suffix_refl _
    | cons c cs =>
      unfold Options.spanWithin
      split_ifs
      · exact (ih _).trans ((skip_suffix o cs).trans (List.suffix_cons c cs))
      · exact List.suffix_refl _

theorem span_suffix (o : Options) (p : Char → Bool) (cs : List Char) :
    (o.span p cs).2 <:+ cs :=
  spanWithin_suffix o p cs.length cs

/-- The second of two results that are known to be a pair. -/
theorem suffix_of_span {p : Char → Bool} {taken : List Char} (h : o.span p cs = (taken, rest)) :
    rest <:+ cs := by
  have := span_suffix o p cs
  rwa [h] at this

theorem suffix_of_skip {c : Char} (h : o.skip cs = c :: rest) : rest <:+ cs :=
  (List.suffix_cons c rest).trans (h ▸ skip_suffix o cs)

theorem suffix_of_skip_span {p : Char → Bool} {taken : List Char}
    (h : o.span p (o.skip cs) = (taken, rest)) : rest <:+ cs :=
  (suffix_of_span h).trans (skip_suffix o cs)

/-! ### Escapes -/

theorem suffix_readHexDigits {n value x : Nat} (h : readHexDigits o n value cs = some (x, rest)) :
    rest <:+ cs := by
  induction n generalizing value cs with
  | zero =>
    cases h
    exact List.suffix_refl _
  | succ n ih =>
    cases cs with
    | nil => cases h
    | cons c cs =>
      obtain ⟨d, -, h⟩ := Option.bind_eq_some_iff.mp h
      exact (ih h).trans ((skip_suffix o cs).trans (List.suffix_cons c cs))

theorem suffix_readBraced {inside : List Char} (h : readBraced o cs = some (inside, rest)) :
    rest <:+ cs := by
  unfold readBraced at h
  split at h
  · rename_i inside' c rest' hspan
    cases h
    exact (List.suffix_cons c rest).trans (suffix_of_skip_span hspan)
  · cases h

theorem suffix_readHex {width : Nat} {a : Atom} (h : readHex o width cs = some (a, rest)) :
    rest <:+ cs := by
  unfold readHex at h
  split at h
  · rename_i inside hskip
    obtain ⟨⟨digits, after⟩, hbraced, h⟩ := Option.bind_eq_some_iff.mp h
    obtain ⟨c, -, h⟩ := Option.map_eq_some_iff.mp h
    cases h
    exact (skip_suffix o after).trans ((suffix_readBraced hbraced).trans (suffix_of_skip hskip))
  · obtain ⟨⟨n, after⟩, hdigits, h⟩ := Option.bind_eq_some_iff.mp h
    obtain ⟨c, -, h⟩ := Option.map_eq_some_iff.mp h
    cases h
    exact (suffix_readHexDigits hdigits).trans (skip_suffix o cs)

theorem suffix_readPropertyName {x : Bool × Unicode.CharSet}
    (h : readPropertyName o cs = some (x, rest)) : rest <:+ cs := by
  unfold readPropertyName at h
  split at h
  · rename_i inside hskip
    obtain ⟨⟨name, after⟩, hbraced, h⟩ := Option.bind_eq_some_iff.mp h
    obtain ⟨y, -, h⟩ := Option.map_eq_some_iff.mp h
    cases h
    exact (suffix_readBraced hbraced).trans (suffix_of_skip hskip)
  · cases h
  · rename_i c inside _ _ hskip
    obtain ⟨y, -, h⟩ := Option.map_eq_some_iff.mp h
    cases h
    exact (skip_suffix o inside).trans (suffix_of_skip hskip)
  · cases h

theorem suffix_readProperty {negated : Bool} {a : Atom}
    (h : readProperty o negated cs = some (a, rest)) : rest <:+ cs := by
  obtain ⟨⟨⟨opposite, s⟩, after⟩, hname, h⟩ := Option.bind_eq_some_iff.mp h
  dsimp only at h
  split_ifs at h
  obtain ⟨t, -, h⟩ := Option.map_eq_some_iff.mp h
  cases h
  exact suffix_readPropertyName hname

theorem suffix_readEdgeName {e : WordEdge} (h : readEdgeName o cs = some (e, rest)) :
    rest <:+ cs := by
  unfold readEdgeName at h
  split at h
  · rename_i name after hspan
    obtain ⟨x, -, h⟩ := Option.map_eq_some_iff.mp h
    cases h
    exact (List.suffix_cons _ rest).trans (suffix_of_span hspan)
  · cases h

theorem suffix_readEdge {e : WordEdge} (h : readEdge o cs = some (e, rest)) : rest <:+ cs := by
  unfold readEdge at h
  split at h
  · rename_i inside
    split at h
    · cases h
    · rename_i c more hskip
      split_ifs at h
      · have hmore : rest <:+ c :: more := suffix_readEdgeName h
        exact hmore.trans ((hskip ▸ skip_suffix o inside).trans (List.suffix_cons _ inside))
      · cases h
        exact List.suffix_refl _
  · cases h
    exact List.suffix_refl _

/-- An escape takes at least the character after the backslash. -/
theorem suffix_readEscape {a : Atom} (h : readEscape o cs = some (a, rest)) : rest <:+ cs.tail := by
  unfold readEscape at h
  split at h
  · cases h
  · exact suffix_readHex h
  · exact suffix_readHex h
  · exact suffix_readHex h
  · exact suffix_readProperty h
  · exact suffix_readProperty h
  · obtain ⟨⟨e, after⟩, he, h⟩ := Option.map_eq_some_iff.mp h
    cases h
    exact suffix_readEdge he
  · obtain ⟨y, -, h⟩ := Option.map_eq_some_iff.mp h
    cases h
    exact List.suffix_refl _

/-! ### Bracketed classes -/

theorem suffix_readCaret (o : Options) (cs : List Char) : (readCaret o cs).2 <:+ cs := by
  unfold readCaret
  split
  · rename_i inside hskip
    exact (skip_suffix o inside).trans (suffix_of_skip hskip)
  · exact skip_suffix o cs

theorem suffix_openClass {x : Bool × List Nested} (h : openClass o cs = some (x, rest)) :
    rest <:+ cs := by
  have hspan := (span_suffix o (· == '-') (readCaret o cs).2).trans (suffix_readCaret o cs)
  unfold openClass at h
  dsimp only at h
  split at h
  · cases h
  · rename_i inside _ heq
    split at h
    · cases h
    · cases h
      exact (skip_suffix o inside).trans ((List.suffix_cons ']' inside).trans (heq ▸ hspan))
  · cases h
    exact hspan

theorem suffix_readPosixName {s : Unicode.CharSet} (h : readPosixName cs = some (s, rest)) :
    rest <:+ cs := by
  unfold readPosixName at h
  split at h
  · rename_i rest' hdrop
    obtain ⟨y, -, h⟩ := Option.map_eq_some_iff.mp h
    cases h
    have hrest : rest <:+ ':' :: ']' :: rest := ⟨[':', ']'], rfl⟩
    exact hrest.trans (hdrop ▸ List.dropWhile_suffix _)
  · cases h

theorem suffix_readPosix {x : Bool × Unicode.CharSet} (h : readPosix cs = some (x, rest)) :
    rest <:+ cs := by
  unfold readPosix at h
  split at h
  · rename_i inside
    obtain ⟨⟨y, after⟩, hname, h⟩ := Option.map_eq_some_iff.mp h
    cases h
    exact (suffix_readPosixName hname).trans ⟨[':', '^'], rfl⟩
  · rename_i inside _
    obtain ⟨⟨y, after⟩, hname, h⟩ := Option.map_eq_some_iff.mp h
    cases h
    exact (suffix_readPosixName hname).trans (List.suffix_cons ':' inside)
  · cases h

theorem suffix_readClassAtom {a : Atom} (h : readClassAtom o cs = some (a, rest)) :
    rest <:+ cs.tail := by
  unfold readClassAtom at h
  split at h
  · cases h
  · exact (suffix_readEscape h).trans (List.tail_suffix _)
  · cases h
    exact List.suffix_refl _

theorem suffix_readRangeEnd {first : Atom} {s : Unicode.CharSet}
    (h : readRangeEnd o first cs = some (s, rest)) : rest <:+ cs := by
  obtain ⟨⟨last, after⟩, hlast, h⟩ := Option.bind_eq_some_iff.mp h
  obtain ⟨a, -, h⟩ := Option.bind_eq_some_iff.mp h
  obtain ⟨b, -, h⟩ := Option.bind_eq_some_iff.mp h
  split_ifs at h
  cases h
  exact (suffix_readClassAtom hlast).trans (List.tail_suffix cs)

theorem suffix_readItemFrom {first : Atom} {s : Unicode.CharSet}
    (h : readItemFrom o first cs = some (s, rest)) : rest <:+ o.skip cs := by
  unfold readItemFrom at h
  split at h
  · cases h
  · rename_i after hskip
    rw [hskip]
    dsimp only at h
    split_ifs at h
    · obtain ⟨y, -, h⟩ := Option.map_eq_some_iff.mp h
      cases h
      exact List.suffix_refl _
    · exact (suffix_readRangeEnd h).trans ((skip_suffix o after).trans (List.suffix_cons _ after))
  · obtain ⟨y, -, h⟩ := Option.map_eq_some_iff.mp h
    cases h
    exact List.suffix_refl _

theorem suffix_readClassItem {s : Unicode.CharSet} (h : readClassItem o cs = some (s, rest)) :
    rest <:+ cs.tail := by
  obtain ⟨⟨first, inside⟩, hfirst, h⟩ := Option.bind_eq_some_iff.mp h
  exact (suffix_readItemFrom h).trans ((skip_suffix o inside).trans (suffix_readClassAtom hfirst))

theorem suffix_readClassTurn {items : List Nested} {frames : List ClassFrame} {t : ClassTurn}
    (h : readClassTurn o items frames cs = some (t, rest)) : rest <:+ cs.tail := by
  have hmap : ∀ {x : Option ClassTurn} {after : List Char}, x.map (·, after) = some (t, rest) →
      rest = after := by
    intro x after hx
    obtain ⟨y, -, hy⟩ := Option.map_eq_some_iff.mp hx
    exact (Prod.mk.inj hy).2.symm
  unfold readClassTurn at h
  split at h
  · cases h
  · split at h
    · rename_i after hposix
      obtain ⟨y, -, h⟩ := Option.map_eq_some_iff.mp h
      cases h
      exact suffix_readPosix hposix
    · obtain ⟨⟨y, after⟩, hopen, h⟩ := Option.map_eq_some_iff.mp h
      cases h
      exact suffix_openClass hopen
  · obtain rfl := hmap h
    exact List.suffix_refl _
  · obtain rfl := hmap h
    exact List.suffix_cons _ _
  · obtain rfl := hmap h
    exact List.suffix_cons _ _
  · obtain rfl := hmap h
    exact List.suffix_cons _ _
  · obtain ⟨⟨y, after⟩, hitem, h⟩ := Option.map_eq_some_iff.mp h
    cases h
    exact suffix_readClassItem hitem

theorem suffix_readClassWithin {n : Nat} {items : List Nested} {frames : List ClassFrame}
    {c : Nested} (h : readClassWithin o n items frames cs = some (c, rest)) : rest <:+ cs := by
  induction n generalizing items frames cs with
  | zero => cases h
  | succ n ih =>
    unfold readClassWithin at h
    have hturn : ∀ {t after}, readClassTurn o items frames (o.skip cs) = some (t, after) →
        after <:+ cs := fun ht =>
      (suffix_readClassTurn ht).trans ((List.tail_suffix _).trans (skip_suffix o cs))
    split at h
    · cases h
    · rename_i whole after ht
      cases h
      exact hturn ht
    · rename_i ht
      exact (ih h).trans (hturn ht)

theorem suffix_readClass {c : Nested} (h : readClass o cs = some (c, rest)) : rest <:+ cs := by
  obtain ⟨⟨x, inside⟩, hopen, h⟩ := Option.bind_eq_some_iff.mp h
  exact (suffix_readClassWithin h).trans (suffix_openClass hopen)

/-! ### Repetitions and groups -/

theorem suffix_readCount {n : Nat} (h : readCount o cs = some (n, rest)) : rest <:+ cs := by
  have hspan := span_suffix o Char.isDigit (cs.dropWhile Unicode.isWhiteSpace)
  unfold readCount at h
  dsimp only at h
  obtain ⟨m, -, h⟩ := Option.bind_eq_some_iff.mp h
  split_ifs at h
  cases h
  exact (List.dropWhile_suffix _).trans (hspan.trans (List.dropWhile_suffix _))

theorem suffix_readUpper {min : Nat} {max : Option Nat}
    (h : readUpper o min cs = some (max, rest)) : rest <:+ cs := by
  unfold readUpper at h
  split at h
  · rename_i hskip
    cases h
    exact suffix_of_skip hskip
  · obtain ⟨⟨m, after⟩, hcount, h⟩ := Option.bind_eq_some_iff.mp h
    split at h
    · rename_i heq
      obtain ⟨rfl, rfl⟩ := Prod.mk.inj heq
      split_ifs at h
      cases h
      exact (List.suffix_cons _ rest).trans ((suffix_readCount hcount).trans (skip_suffix o cs))
    · cases h

theorem suffix_readBounds {b : Nat × Option Nat} (h : readBounds o cs = some (b, rest)) :
    rest <:+ cs := by
  obtain ⟨⟨m, after⟩, hcount, h⟩ := Option.bind_eq_some_iff.mp h
  have hafter : after <:+ cs := (suffix_readCount hcount).trans (skip_suffix o cs)
  dsimp only at h
  split at h
  · rename_i heq
    obtain ⟨rfl, rfl⟩ := Prod.mk.inj heq
    cases h
    exact (List.suffix_cons _ rest).trans hafter
  · rename_i upper heq
    obtain ⟨rfl, rfl⟩ := Prod.mk.inj heq
    obtain ⟨⟨max, after⟩, hupper, h⟩ := Option.map_eq_some_iff.mp h
    cases h
    exact (suffix_readUpper hupper).trans ((List.suffix_cons _ upper).trans hafter)
  · cases h

theorem suffix_readSettings {settings : List (Letter × Bool)} {minus dangling : Bool}
    {x : List (Letter × Bool) × Bool}
    (h : readSettings settings minus dangling cs = some (x, rest)) : rest <:+ cs := by
  induction cs generalizing settings minus dangling with
  | nil => cases h
  | cons c cs ih =>
    refine List.IsSuffix.trans ?_ (List.suffix_cons c cs)
    unfold readSettings at h
    split_ifs at h
    · cases h
      exact List.suffix_refl _
    · exact ih h
    · split at h
      · cases h
      · split_ifs at h
        exact ih h

theorem suffix_readName {name : List Char} (h : readName cs = some (name, rest)) :
    rest <:+ cs := by
  unfold readName at h
  split at h
  · rename_i c after _ hdrop
    split_ifs at h
    cases h
    exact (List.suffix_cons c rest).trans (hdrop ▸ List.dropWhile_suffix _)
  · cases h

namespace State

variable {s t : State}

theorem suffix_enterNamed? (h : s.enterNamed? cs = some (t, rest)) : rest <:+ cs := by
  obtain ⟨⟨name, after⟩, hname, h⟩ := Option.bind_eq_some_iff.mp h
  dsimp only at h
  split_ifs at h
  cases h
  exact suffix_readName hname

theorem suffix_enterMarked? (h : s.enterMarked? cs = some (t, rest)) : rest <:+ cs := by
  unfold enterMarked? at h
  split at h
  · rename_i inside
    exact (suffix_enterNamed? h).trans ⟨['P', '<'], rfl⟩
  · cases h
  · cases h
  · rename_i inside _ _
    exact (suffix_enterNamed? h).trans (List.suffix_cons _ inside)
  · obtain ⟨⟨x, after⟩, hsettings, h⟩ := Option.bind_eq_some_iff.mp h
    have hafter := suffix_readSettings hsettings
    dsimp only at h
    split_ifs at h
    · cases h
      exact hafter
    · cases h
      exact hafter

theorem suffix_enter? (h : s.enter? cs = some (t, rest)) : rest <:+ cs := by
  unfold enter? at h
  split at h
  · rename_i inside hskip
    exact (suffix_enterMarked? h).trans (suffix_of_skip hskip)
  · cases h
    exact skip_suffix s.options cs

theorem suffix_readMark (cs : List Char) : (readMark cs).2 <:+ cs := by
  unfold readMark
  split
  · exact List.suffix_cons _ _
  · exact List.suffix_refl _

theorem suffix_repeatLast? {min : Nat} {max : Option Nat}
    (h : s.repeatLast? min max cs = some (t, rest)) : rest <:+ cs := by
  unfold repeatLast? at h
  split at h
  · cases h
  · split_ifs at h
    cases h
    exact suffix_readMark cs

/-- A part takes at least one character. -/
theorem suffix_step? (h : s.step? cs = some (t, rest)) : rest <:+ cs.tail := by
  unfold step? at h
  split at h
  case h_1 => cases h
  case h_2 => exact suffix_enter? h
  case h_3 =>
    obtain ⟨y, -, h⟩ := Option.map_eq_some_iff.mp h
    cases h
    exact List.suffix_refl _
  case h_4 =>
    cases h
    exact List.suffix_refl _
  case h_5 =>
    obtain ⟨⟨c, after⟩, hclass, h⟩ := Option.map_eq_some_iff.mp h
    cases h
    exact suffix_readClass hclass
  case h_6 => exact suffix_repeatLast? h
  case h_7 => exact suffix_repeatLast? h
  case h_8 => exact suffix_repeatLast? h
  case h_9 =>
    obtain ⟨⟨b, after⟩, hbounds, h⟩ := Option.bind_eq_some_iff.mp h
    exact (suffix_repeatLast? h).trans
      ((skip_suffix s.options after).trans (suffix_readBounds hbounds))
  case h_10 =>
    obtain ⟨⟨a, after⟩, hescape, h⟩ := Option.bind_eq_some_iff.mp h
    obtain ⟨node, -, h⟩ := Option.map_eq_some_iff.mp h
    cases h
    exact (suffix_readEscape hescape).trans (List.tail_suffix _)
  case h_11 =>
    obtain ⟨y, -, h⟩ := Option.map_eq_some_iff.mp h
    cases h
    exact List.suffix_refl _
  case h_12 =>
    cases h
    exact List.suffix_refl _
  case h_13 =>
    cases h
    exact List.suffix_refl _
  case h_14 =>
    obtain ⟨y, -, h⟩ := Option.map_eq_some_iff.mp h
    cases h
    exact List.suffix_refl _

theorem length_lt_of_step? (h : s.step? cs = some (t, rest)) : rest.length < cs.length := by
  cases cs with
  | nil => cases h
  | cons c cs => exact Nat.lt_succ_of_le (suffix_step? h).length_le

end State

end Cohort.Regex
