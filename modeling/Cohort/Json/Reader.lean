import Cohort.Json.Value
import Cohort.Text.Digits
import Cohort.Word

/-!
# Reading JSON text

The reader takes standard JSON only: no trailing commas or text, no leading zeros, no raw control
characters in strings. Half of a surrogate pair, a number that rounds to infinity and arrays and
objects nested more than 127 deep are read, but as `Json.unfit`.

Each step returns what it read with the text after it, and a proof that this text is shorter.
-/

namespace Cohort.Json.Reader

/-- What was read off the front of `cs`, and the rest. -/
structure Taken (α : Type) (cs : List Char) where
  value : α
  rest : List Char
  shorter : rest.length < cs.length

variable {α β : Type}

def isBlank (c : Char) : Bool := c == ' ' || c == '\n' || c == '\t' || c == '\r'

def skipBlank (cs : List Char) : List Char := cs.dropWhile isBlank

theorem length_skipBlank (cs : List Char) : (skipBlank cs).length ≤ cs.length :=
  (List.dropWhile_suffix _).length_le

namespace Taken

/-- The same reading, of a text with more in front. -/
def widen {cs ds : List Char} (t : Taken α cs) (h : cs.length ≤ ds.length) : Taken α ds :=
  ⟨t.value, t.rest, Nat.lt_of_lt_of_le t.shorter h⟩

def map {cs : List Char} (t : Taken α cs) (f : α → β) : Taken β cs :=
  ⟨f t.value, t.rest, t.shorter⟩

end Taken

/-- The number that four hexadecimal digits write. -/
def fourHex : (cs : List Char) → Option (Taken Nat cs)
  | a :: b :: c :: d :: rest => do
    let a ← Text.hexDigit? a
    let b ← Text.hexDigit? b
    let c ← Text.hexDigit? c
    let d ← Text.hexDigit? d
    some ⟨((a * 16 + b) * 16 + c) * 16 + d, rest, by simp only [List.length_cons]; omega⟩
  | _ => none

/-- The character of an escape of two characters. -/
def simpleEscape? : Char → Option Char
  | '"' => some '"'
  | '\\' => some '\\'
  | '/' => some '/'
  | 'b' => some '\x08'
  | 'f' => some '\x0c'
  | 'n' => some '\n'
  | 'r' => some '\r'
  | 't' => some '\t'
  | _ => none

def isHighSurrogate (n : Nat) : Bool := 0xd800 ≤ n && n < 0xdc00

def isLowSurrogate (n : Nat) : Bool := 0xdc00 ≤ n && n < 0xe000

/-- An escape that writes the second half of a surrogate pair. -/
def lowSurrogate : (cs : List Char) → Option (Taken Nat cs)
  | '\\' :: 'u' :: rest =>
    match fourHex rest with
    | some t =>
      if isLowSurrogate t.value then some (t.widen (by simp only [List.length_cons]; omega))
      else none
    | none => none
  | _ => none

/-- The character that an escape with four digits writes, with a second escape where the first is
the first half of a surrogate pair; nothing in its place if the other half is missing. -/
def numberedEscape (cs : List Char) : Option (Taken (Option Char) cs) :=
  match fourHex cs with
  | none => none
  | some t =>
    if isHighSurrogate t.value then
      match lowSurrogate t.rest with
      | some low =>
        let joined := (t.value - 0xd800) * 0x400 + (low.value - 0xdc00) + 0x10000
        some ⟨some (Char.ofNat joined), low.rest, Nat.lt_trans low.shorter t.shorter⟩
      | none => some (t.map fun _ => none)
    else some (t.map fun n => if isLowSurrogate n then none else some (Char.ofNat n))

/-- One character within a string, plain or escaped. -/
def stringChar : (cs : List Char) → Option (Taken (Option Char) cs)
  | [] => none
  | '\\' :: 'u' :: rest =>
    (numberedEscape rest).map (·.widen (by simp only [List.length_cons]; omega))
  | '\\' :: e :: rest =>
    (simpleEscape? e).map (⟨some ·, rest, by simp only [List.length_cons]; omega⟩)
  | c :: rest =>
    if c.toNat < 0x20 || c == '\\' then none else some ⟨some c, rest, by simp⟩

/-- The rest of a string after its opening quote; nothing if it has half of a surrogate pair. -/
def stringBody (cs : List Char) : Option (Taken (Option (List Char)) cs) :=
  match cs with
  | '"' :: rest => some ⟨some [], rest, by simp⟩
  | cs =>
    match stringChar cs with
    | none => none
    | some first =>
      (stringBody first.rest).map fun t =>
        (t.map fun text => do some ((← first.value) :: (← text))).widen
          (Nat.le_of_lt first.shorter)
termination_by cs.length
decreasing_by exact first.shorter

def natOfDigits (digits : List Char) : Nat :=
  digits.foldl (fun n d => n * 10 + (d.toNat - '0'.toNat)) 0

/-- Leading digits and the rest. -/
def spanDigits (cs : List Char) : List Char × List Char :=
  (cs.takeWhile Char.isDigit, cs.dropWhile Char.isDigit)

theorem length_spanDigits (cs : List Char) :
    (spanDigits cs).1.length + (spanDigits cs).2.length = cs.length := by
  rw [spanDigits, ← List.length_append, List.takeWhile_append_dropWhile]

/-- The digits after a decimal point, if there is one. -/
def fractionPart : List Char → Option (Option (List Char) × List Char)
  | '.' :: rest =>
    let (digits, rest) := spanDigits rest
    if digits.isEmpty then none else some (some digits, rest)
  | cs => some (none, cs)

/-- Whether an exponent is negative, and the text after its sign. -/
def exponentSign : List Char → Bool × List Char
  | '-' :: rest => (true, rest)
  | '+' :: rest => (false, rest)
  | cs => (false, cs)

/-- The exponent, if there is one. -/
def exponentPart : List Char → Option (Option Int × List Char)
  | e :: rest =>
    if e == 'e' || e == 'E' then
      let (negative, rest) := exponentSign rest
      let (digits, rest) := spanDigits rest
      if digits.isEmpty then none
      else
        let n : Int := natOfDigits digits
        some (some (if negative then -n else n), rest)
    else some (none, e :: rest)
  | [] => some (none, [])

def ofReal (x : Option Binary64) : Json := (x.map real).getD unfit

/-- The value of an integer literal. -/
def ofInteger (negative : Bool) (n : Nat) : Json :=
  if negative then
    if 0 < n && n ≤ 0x8000_0000_0000_0000 then int (-n)
    else ofReal (Binary64.ofDecimal? true n 0)
  else if n < wordBound then int n
  else ofReal (Binary64.ofDecimal? false n 0)

/-- The digits of a number after its sign. -/
def unsigned (negative : Bool) (cs : List Char) : Option (Json × List Char) := do
  let (whole, rest) := spanDigits cs
  if whole.isEmpty || whole.head? == some '0' && whole.length > 1 then none
  else
    let (fraction, rest) ← fractionPart rest
    let (exponent, rest) ← exponentPart rest
    let j :=
      match fraction, exponent with
      | none, none => ofInteger negative (natOfDigits whole)
      | fraction, exponent =>
        let fraction := fraction.getD []
        ofReal <| Binary64.ofDecimal? negative (natOfDigits (whole ++ fraction))
          (exponent.getD 0 - fraction.length)
    some (j, rest)

theorem length_fractionPart {cs rest : List Char} {digits : Option (List Char)}
    (h : fractionPart cs = some (digits, rest)) : rest.length ≤ cs.length := by
  unfold fractionPart at h
  split at h
  · rename_i after
    have := length_spanDigits after
    grind
  · grind

theorem length_exponentSign (cs : List Char) : (exponentSign cs).2.length ≤ cs.length := by
  unfold exponentSign
  split <;> simp

theorem length_exponentPart {cs rest : List Char} {exponent : Option Int}
    (h : exponentPart cs = some (exponent, rest)) : rest.length ≤ cs.length := by
  unfold exponentPart at h
  split at h
  · rename_i after
    have h1 := length_exponentSign after
    have h2 := length_spanDigits (exponentSign after).2
    dsimp only at h
    split at h
    · split at h
      · contradiction
      · injection h with h
        injection h with _ h
        simp only [← h, List.length_cons]
        omega
    · injection h with h
      injection h with _ h
      exact h ▸ Nat.le_refl _
  · injection h with h
    injection h with _ h
    exact h ▸ Nat.le_refl _

theorem length_unsigned {negative : Bool} {cs rest : List Char} {j : Json}
    (h : unsigned negative cs = some (j, rest)) : rest.length < cs.length := by
  unfold unsigned at h
  dsimp only at h
  split at h
  · contradiction
  · rename_i hw
    simp only [Option.bind_eq_bind, Option.bind_eq_some_iff] at h
    obtain ⟨⟨fraction, r⟩, hf, ⟨exponent, r'⟩, he, h⟩ := h
    injection h with h
    injection h with _ h
    have h1 := length_spanDigits cs
    have h2 := length_fractionPart hf
    have h3 := length_exponentPart he
    have h4 : 0 < (spanDigits cs).1.length := by
      simp only [Bool.or_eq_true, not_or, List.isEmpty_iff] at hw
      exact List.length_pos_iff.2 hw.1
    subst h
    dsimp only at h2 h3 ⊢
    omega

/-- A number. -/
def number : (cs : List Char) → Option (Taken Json cs)
  | '-' :: rest =>
    match h : unsigned true rest with
    | some (j, after) => some ⟨j, after, Nat.lt_succ_of_lt (length_unsigned h)⟩
    | none => none
  | cs =>
    match h : unsigned false cs with
    | some (j, after) => some ⟨j, after, length_unsigned h⟩
    | none => none

/-- A string with its quotes; nothing if it is unfit. -/
def string : (cs : List Char) → Option (Taken (Option String) cs)
  | '"' :: rest =>
    (stringBody rest).map fun t => (t.map (Option.map String.ofList)).widen (by simp)
  | _ => none

/-- One or more things separated by commas, up to `close`. -/
def separated (close : Char) (item : (cs : List Char) → Option (Taken α cs)) (cs : List Char) :
    Option (Taken (List α) cs) :=
  match item cs with
  | none => none
  | some first =>
    have hf := first.shorter
    have hb := length_skipBlank first.rest
    match hs : skipBlank first.rest with
    | [] => none
    | c :: rest =>
      have hr : rest.length < cs.length := by
        rw [hs, List.length_cons] at hb
        omega
      if c == close then some ⟨[first.value], rest, hr⟩
      else if c == ',' then
        (separated close item rest).map fun t =>
          (t.map (first.value :: ·)).widen (Nat.le_of_lt hr)
      else none
termination_by cs.length

/-- Things separated by commas, up to `close`; possibly none. -/
def enclosed (close : Char) (item : (cs : List Char) → Option (Taken α cs)) (cs : List Char) :
    Option (Taken (List α) cs) :=
  have hb := length_skipBlank cs
  match hs : skipBlank cs with
  | [] => none
  | c :: rest =>
    if c == close then
      some ⟨[], rest, by rw [hs, List.length_cons] at hb; omega⟩
    else separated close item cs

/-- Reads past blanks. -/
def afterBlank (item : (cs : List Char) → Option (Taken α cs)) (cs : List Char) :
    Option (Taken α cs) :=
  (item (skipBlank cs)).map (·.widen (length_skipBlank cs))

/-- A member of an object: a name, a colon and a value. -/
def member (value : (cs : List Char) → Option (Taken Json cs)) (cs : List Char) :
    Option (Taken (Option String × Json) cs) :=
  match afterBlank string cs with
  | none => none
  | some name =>
    have hn := name.shorter
    have hb := length_skipBlank name.rest
    match hs : skipBlank name.rest with
    | ':' :: rest =>
      (value rest).map fun t =>
        (t.map (name.value, ·)).widen (by rw [hs, List.length_cons] at hb; omega)
    | _ => none

/-- An object with the given members, all of whose names must be fit. -/
def ofMembers (members : List (Option String × Json)) : Json :=
  match members.mapM fun (name, j) => name.map (·, j) with
  | some members => obj members
  | none => unfit

/-- A value without arrays and objects. -/
def scalar : (cs : List Char) → Option (Taken Json cs)
  | '"' :: rest => (string ('"' :: rest)).map (·.map fun s => (s.map str).getD unfit)
  | 't' :: 'r' :: 'u' :: 'e' :: rest => some ⟨bool true, rest, by grind⟩
  | 'f' :: 'a' :: 'l' :: 's' :: 'e' :: rest => some ⟨bool false, rest, by grind⟩
  | 'n' :: 'u' :: 'l' :: 'l' :: rest => some ⟨null, rest, by grind⟩
  | cs => number cs

/-- What may come next in the innermost of some open brackets. -/
inductive Awaited where
  | item (closable : Bool)
  | name (closable : Bool)
  | separator

/-- Passes over values to the end of the outermost of the brackets that are open, the innermost
first; `true` stands for an object. -/
def passOver (awaited : Awaited) (isObject : List Bool) (cs : List Char) : Option (List Char) :=
  match awaited, isObject with
  | .separator, [] => some cs
  | awaited, isObject =>
    have hb := length_skipBlank cs
    match hs : skipBlank cs with
    | [] => none
    | c :: rest =>
      have hr : rest.length < cs.length := by
        rw [hs, List.length_cons] at hb
        omega
      match awaited with
      | .item closable =>
        if c == '[' then passOver (.item true) (false :: isObject) rest
        else if c == '\x7b' then passOver (.name true) (true :: isObject) rest
        else if c == ']' && closable then passOver .separator isObject.tail rest
        else
          match scalar (c :: rest) with
          | some t =>
            have ht := t.shorter
            passOver .separator isObject t.rest
          | none => none
      | .name closable =>
        if c == '\x7d' && closable then passOver .separator isObject.tail rest
        else
          match string (c :: rest) with
          | some t =>
            have ht := t.shorter
            have hd := length_skipBlank t.rest
            match hn : skipBlank t.rest with
            | ':' :: after => passOver (.item false) isObject after
            | _ => none
          | none => none
      | .separator =>
        let inObject := isObject.head?.getD false
        if c == ',' then
          passOver (if inObject then .name false else .item false) isObject rest
        else if c == (if inObject then '\x7d' else ']') then
          passOver .separator isObject.tail rest
        else none
termination_by cs.length
decreasing_by
  · exact hr
  · exact hr
  · exact hr
  · simp only [List.length_cons] at ht
    omega
  · exact hr
  · rw [hn] at hd
    simp only [List.length_cons] at ht hd
    omega
  · exact hr
  · exact hr

theorem length_passOver {awaited : Awaited} {isObject : List Bool} {cs rest : List Char}
    (h : passOver awaited isObject cs = some rest) : rest.length ≤ cs.length := by
  fun_induction passOver awaited isObject cs <;> grind

/-- A value after its opening bracket `c`, of which nothing is kept. -/
def passed (c : Char) (awaited : Awaited) (isObject : Bool) (cs : List Char) :
    Option (Taken Json (c :: cs)) :=
  match h : passOver awaited [isObject] cs with
  | some rest => some ⟨unfit, rest, Nat.lt_succ_of_le (length_passOver h)⟩
  | none => none

/-- A value with at most `depth` nested arrays and objects; what is nested deeper is unfit. -/
def value : (depth : Nat) → (cs : List Char) → Option (Taken Json cs)
  | 0, cs => afterBlank (fun
    | '[' :: rest => passed '[' (.item true) false rest
    | '\x7b' :: rest => passed '\x7b' (.name true) true rest
    | cs => scalar cs) cs
  | depth + 1, cs => afterBlank (fun
    | '[' :: rest =>
      (enclosed ']' (value depth) rest).map fun t => (t.map arr).widen (by simp)
    | '\x7b' :: rest =>
      (enclosed '\x7d' (member (value depth)) rest).map fun t =>
        (t.map ofMembers).widen (by simp)
    | cs => scalar cs) cs

def maxDepth : Nat := 127

end Reader

/-- Reads a whole text. Parts of the value may be unfit. -/
def parse? (text : String) : Option Json := do
  let t ← Reader.value Reader.maxDepth text.toList
  if (Reader.skipBlank t.rest).isEmpty then some t.value else none

end Cohort.Json
