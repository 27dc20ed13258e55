import Mathlib.Data.List.Nodup
import Cohort.Chunk

/-!
# Loops — what a fold keeps, and that chunks do not matter

`foldlM_induct` is the rule for every loop over a list that may stop: an invariant that speaks of
the part already done; `exists_foldlM` is the rule for loops that go through. `foldlM_chunks` says
that draining a list through a buffer, entry by entry, is the loop over the list itself. The lemmas
on `mapM` take a list of results apart, those on `foldl max` say what the largest entry is, and the
last ones what is found by its key.
-/

namespace Cohort

section Loops

variable {α β γ σ ε : Type}

/-- A property of the entries done and the state that every step keeps holds at the end. -/
theorem foldlM_induct {f : σ → α → Option σ} {xs : List α} (I : List α → σ → Prop) {s s' : σ}
    (hs : I [] s)
    (step : ∀ done x rest t t', xs = done ++ x :: rest → I done t → f t x = some t' →
      I (done ++ [x]) t')
    (h : xs.foldlM f s = some s') : I xs s' := by
  suffices main : ∀ (rest done : List α) (t : σ), xs = done ++ rest → I done t →
      rest.foldlM f t = some s' → I xs s' from main xs [] s rfl hs h
  intro rest
  induction rest with
  | nil =>
    intro done t hxs ht hr
    cases hr
    rw [hxs, List.append_nil]
    exact ht
  | cons x rest ih =>
    intro done t hxs ht hr
    rw [List.foldlM_cons] at hr
    obtain ⟨t', hx, hr⟩ := Option.bind_eq_some_iff.mp hr
    exact ih (done ++ [x]) t' (by simp [hxs]) (step done x rest t t' hxs ht hx) hr

/-- The same for an invariant of the state alone. -/
theorem foldlM_keeps {f : σ → α → Option σ} {xs : List α} (I : σ → Prop) {s s' : σ} (hs : I s)
    (step : ∀ x ∈ xs, ∀ t t', I t → f t x = some t' → I t') (h : xs.foldlM f s = some s') : I s' :=
  foldlM_induct (fun _ t => I t) hs
    (fun _ x _ t t' hxs ht hx => step x (by simp [hxs]) t t' ht hx) h

/-- A reflexive and transitive relation that every step respects links both ends. -/
theorem foldlM_relates {f : σ → α → Option σ} {xs : List α} {R : σ → σ → Prop} {s s' : σ}
    (refl : ∀ t, R t t) (trans : ∀ t u v, R t u → R u v → R t v)
    (step : ∀ x ∈ xs, ∀ t t', f t x = some t' → R t t')
    (h : xs.foldlM f s = some s') : R s s' := by
  refine foldlM_induct (fun _ t => R s t) (refl s) ?_ h
  intro done x rest t t' hxs ht hx
  exact trans s t t' ht (step x (by simp [hxs]) t t' hx)

/-- A loop may be followed by another one whose steps do the same where they succeed. -/
theorem foldlM_imp {f f' : σ → α → Option σ} {xs : List α} {s s' : σ}
    (step : ∀ x ∈ xs, ∀ t t', f t x = some t' → f' t x = some t')
    (h : xs.foldlM f s = some s') : xs.foldlM f' s = some s' := by
  induction xs generalizing s with
  | nil => exact h
  | cons x xs ih =>
    rw [List.foldlM_cons] at h ⊢
    obtain ⟨t, ht, h⟩ := Option.bind_eq_some_iff.mp h
    rw [step x List.mem_cons_self s t ht]
    exact ih (fun y hy => step y (List.mem_cons_of_mem _ hy)) h

/-- A loop succeeds if every step from a state with the invariant does, and keeps it. -/
theorem exists_foldlM {f : σ → α → Option σ} {xs : List α} (I : List α → σ → Prop) {s : σ}
    (hs : I [] s)
    (step : ∀ done x rest t, xs = done ++ x :: rest → I done t →
      ∃ t', f t x = some t' ∧ I (done ++ [x]) t') :
    ∃ s', xs.foldlM f s = some s' ∧ I xs s' := by
  suffices main : ∀ (rest done : List α) (t : σ), xs = done ++ rest → I done t →
      ∃ s', rest.foldlM f t = some s' ∧ I xs s' from main xs [] s rfl hs
  intro rest
  induction rest with
  | nil =>
    intro done t hxs ht
    rw [List.append_nil] at hxs
    exact ⟨t, rfl, hxs ▸ ht⟩
  | cons x rest ih =>
    intro done t hxs ht
    obtain ⟨t', hx, ht'⟩ := step done x rest t hxs ht
    rw [List.foldlM_cons, hx]
    exact ih (done ++ [x]) t' (by simp [hxs]) ht'

/-- The same for an invariant of the state alone. -/
theorem exists_foldlM_of {f : σ → α → Option σ} {xs : List α} (I : σ → Prop) {s : σ} (hs : I s)
    (step : ∀ x ∈ xs, ∀ t, I t → ∃ t', f t x = some t' ∧ I t') :
    ∃ s', xs.foldlM f s = some s' ∧ I s' :=
  exists_foldlM (fun _ t => I t) hs fun _ x _ t hxs ht => step x (by simp [hxs]) t ht

/-- A loop whose steps change nothing. -/
theorem foldlM_fixed {f : σ → α → Option σ} {xs : List α} {s : σ}
    (h : ∀ x ∈ xs, f s x = some s) : xs.foldlM f s = some s := by
  induction xs with
  | nil => rfl
  | cons x xs ih =>
    rw [List.foldlM_cons, h x List.mem_cons_self]
    exact ih fun y hy => h y (List.mem_cons_of_mem _ hy)

/-- Loops whose steps agree on the states that are met. -/
theorem foldlM_congr {f f' : σ → α → Option σ} {xs : List α} (I : σ → Prop) {s : σ} (hs : I s)
    (hf : ∀ x ∈ xs, ∀ t, I t → f t x = f' t x)
    (keep : ∀ x ∈ xs, ∀ t t', I t → f' t x = some t' → I t') :
    xs.foldlM f s = xs.foldlM f' s := by
  induction xs generalizing s with
  | nil => rfl
  | cons x xs ih =>
    rw [List.foldlM_cons, List.foldlM_cons, hf x List.mem_cons_self s hs]
    cases hx : f' s x with
    | none => rfl
    | some t =>
      exact ih (keep x List.mem_cons_self s t hs hx)
        (fun y hy => hf y (List.mem_cons_of_mem _ hy))
        (fun y hy => keep y (List.mem_cons_of_mem _ hy))

/-- A loop that takes something along which is as before after every step. -/
theorem foldlM_along {f : σ × β → α → Option (σ × β)} {f' : σ → α → Option σ} {xs : List α} {b : β}
    (h : ∀ x ∈ xs, ∀ s, f (s, b) x = (f' s x).map (·, b)) (s : σ) :
    xs.foldlM f (s, b) = (xs.foldlM f' s).map (·, b) := by
  induction xs generalizing s with
  | nil => rfl
  | cons x xs ih =>
    rw [List.foldlM_cons, List.foldlM_cons, h x List.mem_cons_self]
    cases f' s x with
    | none => rfl
    | some t => exact ih (fun y hy => h y (List.mem_cons_of_mem _ hy)) t

/-- Where a loop that may be refused succeeds, it is the loop that forgets the refusals. -/
theorem foldlM_toOption {f : σ → α → Except ε σ} {xs : List α} {s s' : σ}
    (h : xs.foldlM f s = .ok s') : xs.foldlM (fun s x => (f s x).toOption) s = some s' := by
  induction xs generalizing s with
  | nil =>
    cases h
    rfl
  | cons x xs ih =>
    rw [List.foldlM_cons] at h ⊢
    cases hx : f s x with
    | error e =>
      rw [hx] at h
      cases h
    | ok t =>
      rw [hx] at h
      exact ih h

/-- A loop that is refused is so at one of its entries, in the state that those before led to. -/
theorem exists_of_foldlM_error {f : σ → α → Except ε σ} {xs : List α} {s : σ} {e : ε}
    (h : xs.foldlM f s = .error e) : ∃ done x rest t, xs = done ++ x :: rest ∧
      done.foldlM f s = .ok t ∧ f t x = .error e := by
  induction xs generalizing s with
  | nil => cases h
  | cons x xs ih =>
    rw [List.foldlM_cons] at h
    cases hx : f s x with
    | error e' =>
      rw [hx] at h
      cases h
      exact ⟨[], x, xs, s, rfl, rfl, hx⟩
    | ok t =>
      rw [hx] at h
      obtain ⟨done, y, rest, u, rfl, hdone, hy⟩ := ih h
      refine ⟨x :: done, y, rest, u, rfl, ?_, hy⟩
      rw [List.foldlM_cons, hx]
      exact hdone

/-! ### Lists of results -/

theorem mapM_eq_some_iff {f : α → Option β} {xs : List α} {ys : List β} :
    xs.mapM f = some ys ↔ xs.map f = ys.map some := by
  induction xs generalizing ys with
  | nil => cases ys <;> simp
  | cons x xs ih =>
    rw [List.mapM_cons, List.map_cons]
    constructor
    · intro h
      obtain ⟨y, hy, h⟩ := Option.bind_eq_some_iff.mp h
      obtain ⟨zs, hzs, h⟩ := Option.bind_eq_some_iff.mp h
      cases h
      rw [List.map_cons, hy, ih.mp hzs]
    · intro h
      cases ys with
      | nil => cases h
      | cons y ys =>
        rw [List.map_cons, List.cons.injEq] at h
        rw [h.1, ih.mpr h.2]
        rfl

theorem mapM_some (xs : List α) : xs.mapM some = some xs :=
  mapM_eq_some_iff.mpr rfl

theorem mapM_congr {f g : α → Option β} {xs : List α} (h : ∀ x ∈ xs, f x = g x) :
    xs.mapM f = xs.mapM g := by
  induction xs with
  | nil => rfl
  | cons x xs ih =>
    rw [List.mapM_cons, List.mapM_cons, h x List.mem_cons_self,
      ih fun y hy => h y (List.mem_cons_of_mem _ hy)]

/-- Where a list of results was made, every entry has one, and it is in the list. -/
theorem exists_of_mapM {f : α → Option β} {xs : List α} {ys : List β} (h : xs.mapM f = some ys)
    {x : α} (hx : x ∈ xs) : ∃ y ∈ ys, f x = some y := by
  rw [mapM_eq_some_iff] at h
  have hmem := List.mem_map_of_mem (f := f) hx
  rw [h] at hmem
  obtain ⟨y, hy, he⟩ := List.mem_map.mp hmem
  exact ⟨y, hy, he.symm⟩

/-- Results of results are results of the composition. -/
theorem mapM_comp {f : α → Option β} {g : β → Option γ} {xs : List α} {ys : List β}
    {zs : List γ} (hf : xs.mapM f = some ys) (hg : ys.mapM g = some zs) :
    xs.mapM (fun x => (f x).bind g) = some zs := by
  rw [mapM_eq_some_iff] at hf hg ⊢
  calc xs.map (fun x => (f x).bind g) = (xs.map f).map (·.bind g) := by simp
    _ = ys.map g := by simp [hf]
    _ = zs.map some := hg

theorem mapM_pair {f : α → Option β} {g : α → Option γ} {xs : List α} {ys : List β}
    {zs : List γ} (hf : xs.mapM f = some ys) (hg : xs.mapM g = some zs) :
    xs.mapM (fun x => (f x).bind fun y => (g x).map (y, ·)) = some (ys.zip zs) := by
  induction xs generalizing ys zs with
  | nil =>
    cases hf
    cases hg
    rfl
  | cons x xs ih =>
    rw [mapM_eq_some_iff] at hf hg
    cases ys with
    | nil => cases hf
    | cons y ys =>
      cases zs with
      | nil => cases hg
      | cons z zs =>
        simp only [List.map_cons, List.cons.injEq] at hf hg
        rw [List.mapM_cons, hf.1, hg.1, ih (mapM_eq_some_iff.mpr hf.2) (mapM_eq_some_iff.mpr hg.2)]
        rfl

theorem exists_mapM {f : α → Option β} {xs : List α} (h : ∀ x ∈ xs, ∃ y, f x = some y) :
    ∃ ys, xs.mapM f = some ys := by
  induction xs with
  | nil => exact ⟨[], rfl⟩
  | cons x xs ih =>
    obtain ⟨y, hy⟩ := h x List.mem_cons_self
    obtain ⟨ys, hys⟩ := ih fun z hz => h z (List.mem_cons_of_mem _ hz)
    exact ⟨y :: ys, by rw [List.mapM_cons, hy, hys]; rfl⟩

/-- Results worked out in two rounds. -/
theorem mapM_bind {f : α → Option β} {g : β → Option γ} (xs : List α) :
    ((xs.mapM f).bind fun ys => ys.mapM g) = xs.mapM fun x => (f x).bind g := by
  induction xs with
  | nil => rfl
  | cons x xs ih =>
    rw [List.mapM_cons, List.mapM_cons, ← ih]
    cases f x with
    | none => rfl
    | some y =>
      cases hxs : xs.mapM f with
      | none => cases hy : g y <;> simp [hy]
      | some ys => simp

/-- Two lists of results side by side. -/
theorem mapM_bind_zip {δ : Type} {f : α → Option β} {g : α → Option γ} (xs : List α)
    (k : List (β × γ) → Option δ) :
    ((xs.mapM f).bind fun ys => (xs.mapM g).bind fun zs => k (ys.zip zs)) =
      (xs.mapM fun x => (f x).bind fun y => (g x).map (y, ·)).bind k := by
  induction xs generalizing k with
  | nil => rfl
  | cons x xs ih =>
    simp only [List.mapM_cons]
    cases f x with
    | none => rfl
    | some y =>
      cases g x with
      | none => cases xs.mapM f <;> rfl
      | some z =>
        have hk := ih fun ps => k ((y, z) :: ps)
        cases hys : xs.mapM f with
        | none => simpa [hys, Option.bind_assoc] using hk
        | some ys =>
          cases hzs : xs.mapM g with
          | none => simpa [hys, hzs, Option.bind_assoc] using hk
          | some zs => simpa [hys, hzs, Option.bind_assoc] using hk

/-- A loop over a list and what was read for its entries is a loop that reads as it goes. -/
theorem foldlM_zip {m : Type → Type} [Monad m] [LawfulMonad m] {r : α → Option β}
    {f : σ → α → β → m σ} {k : σ → α → m σ} {xs : List α} {ys : List β}
    (hys : xs.mapM r = some ys) (hk : ∀ x y, r x = some y → ∀ t, k t x = f t x y) (s : σ) :
    (xs.zip ys).foldlM (fun t p => f t p.1 p.2) s = xs.foldlM k s := by
  induction xs generalizing ys s with
  | nil => rfl
  | cons x xs ih =>
    rw [mapM_eq_some_iff] at hys
    cases ys with
    | nil => cases hys
    | cons y ys =>
      simp only [List.map_cons, List.cons.injEq] at hys
      rw [List.zip_cons_cons, List.foldlM_cons, List.foldlM_cons, hk x y hys.1]
      exact congrArg (f s x y >>= ·) (funext fun t => ih (mapM_eq_some_iff.mpr hys.2) t)

/-- A loop over results is a loop that works them out as it goes. -/
theorem mapM_bind_foldl {r : α → Option β} {f : σ → β → σ} (xs : List α) (s : σ) :
    ((xs.mapM r).bind fun ys => some (ys.foldl f s)) =
      xs.foldlM (fun t x => (r x).map (f t)) s := by
  induction xs generalizing s with
  | nil => rfl
  | cons x xs ih =>
    rw [List.mapM_cons, List.foldlM_cons]
    cases r x with
    | none => rfl
    | some y =>
      have h := ih (f s y)
      cases hys : xs.mapM r with
      | none => simpa [hys] using h
      | some ys => simpa [hys] using h

/-! ### Largest entries -/

theorem foldl_max_le_iff {xs : List Nat} {a b : Nat} :
    xs.foldl max a ≤ b ↔ a ≤ b ∧ ∀ x ∈ xs, x ≤ b := by
  induction xs generalizing a with
  | nil => simp
  | cons x xs ih =>
    rw [List.foldl_cons, ih, List.forall_mem_cons, Nat.max_le, and_assoc]

theorem le_foldl_max {xs : List Nat} {x : Nat} (a : Nat) (hx : x ∈ xs) : x ≤ xs.foldl max a :=
  (foldl_max_le_iff.mp (Nat.le_refl (xs.foldl max a))).2 x hx

theorem foldl_max_lt {xs : List Nat} {b : Nat} (hb : 0 < b) (h : ∀ x ∈ xs, x < b) :
    xs.foldl max 0 < b := by
  have hle : xs.foldl max 0 ≤ b - 1 :=
    foldl_max_le_iff.mpr ⟨Nat.zero_le _, fun x hx => Nat.le_pred_of_lt (h x hx)⟩
  omega

theorem foldl_max_mem {xs : List Nat} (hxs : xs ≠ []) : xs.foldl max 0 ∈ xs := by
  have hmem : ∀ a, xs.foldl max a = a ∨ xs.foldl max a ∈ xs := by
    clear hxs
    induction xs with
    | nil => exact fun a => .inl rfl
    | cons x xs ih =>
      intro a
      rw [List.foldl_cons]
      rcases ih (max a x) with h | h
      · rw [h, List.mem_cons]
        omega
      · exact .inr (List.mem_cons_of_mem _ h)
  rcases hmem 0 with h | h
  · obtain ⟨x, hx⟩ := List.exists_mem_of_ne_nil xs hxs
    have := le_foldl_max 0 hx
    rw [h]
    rwa [show x = 0 by omega] at hx
  · exact h

/-! ### Loops over loops -/

/-- Loops whose steps are the same on the entries of the list. -/
theorem foldlM_ext {m : Type → Type} [Monad m] {f f' : σ → α → m σ} {xs : List α}
    (h : ∀ x ∈ xs, ∀ s, f s x = f' s x) (s : σ) : xs.foldlM f s = xs.foldlM f' s := by
  induction xs generalizing s with
  | nil => rfl
  | cons x xs ih =>
    rw [List.foldlM_cons, List.foldlM_cons, h x List.mem_cons_self]
    refine congrArg (f' s x >>= ·) (funext fun t => ?_)
    exact ih (fun y hy => h y (List.mem_cons_of_mem _ hy)) t

theorem foldlM_flatten {m : Type → Type} [Monad m] [LawfulMonad m] (f : σ → α → m σ)
    (xss : List (List α)) (s : σ) :
    xss.foldlM (fun s xs => xs.foldlM f s) s = xss.flatten.foldlM f s := by
  induction xss generalizing s with
  | nil => rfl
  | cons xs xss ih =>
    rw [List.foldlM_cons, List.flatten_cons, List.foldlM_append]
    exact congrArg (xs.foldlM f s >>= ·) (funext ih)

theorem foldlM_flatMap {m : Type → Type} [Monad m] [LawfulMonad m] (f : σ → β → m σ)
    (g : α → List β) (xs : List α) (s : σ) :
    (xs.flatMap g).foldlM f s = xs.foldlM (fun s x => (g x).foldlM f s) s := by
  rw [List.flatMap_def, ← foldlM_flatten, List.foldlM_map]

end Loops

/-! ### Chunks -/

section Chunks

variable {α σ : Type} {n : Nat}

theorem chunks_zero (xs : List α) : chunks 0 xs = [] := by
  rw [chunks]

theorem chunks_nil (n : Nat) : chunks n ([] : List α) = [] := by
  cases n with
  | zero => rw [chunks]
  | succ n =>
    rw [chunks]
    exact Nat.succ_ne_zero n

/-- The first chunk is one fill of the buffer, and the others are the chunks of what is left. -/
theorem chunks_of_ne_nil (hn : 0 < n) {xs : List α} (hxs : xs ≠ []) :
    chunks n xs = xs.take n :: chunks n (xs.drop n) := by
  obtain ⟨n, rfl⟩ := Nat.exists_eq_add_of_lt hn
  obtain ⟨x, xs, rfl⟩ := List.exists_cons_of_ne_nil hxs
  rw [chunks, Nat.zero_add, List.take_succ_cons, List.drop_succ_cons]

/-- What is shown of the empty list, and of a list wherever it holds of what one fill leaves, holds
of all lists. -/
theorem fill_induct (hn : 0 < n) {P : List α → Prop} (nil : P [])
    (fill : ∀ xs, xs ≠ [] → P (xs.drop n) → P xs) (xs : List α) : P xs := by
  induction hlen : xs.length using Nat.strongRecOn generalizing xs with
  | ind len ih =>
    by_cases hxs : xs = []
    · exact hxs ▸ nil
    · have hpos := List.length_pos_iff.mpr hxs
      exact fill xs hxs (ih _ (by rw [List.length_drop]; omega) _ rfl)

/-- The chunks of a list are the list, cut up. -/
theorem flatten_chunks (hn : 0 < n) (xs : List α) : (chunks n xs).flatten = xs := by
  induction xs using fill_induct hn with
  | nil => rw [chunks_nil, List.flatten_nil]
  | fill xs hxs ih => rw [chunks_of_ne_nil hn hxs, List.flatten_cons, ih, List.take_append_drop]

theorem foldlM_chunks {m : Type → Type} [Monad m] [LawfulMonad m] (hn : 0 < n)
    (f : σ → α → m σ) (xs : List α) (s : σ) :
    (chunks n xs).foldlM (fun s c => c.foldlM f s) s = xs.foldlM f s := by
  rw [foldlM_flatten, flatten_chunks hn]

/-- Draining a list is the loop over its chunks: a buffer that is full when the list ends is filled
once more, but nothing comes of it. -/
theorem drain_eq {m : Type → Type} [Monad m] [LawfulMonad m] (n : Nat) (xs : List α)
    (f : σ → List α → m σ) (s : σ) : drain n xs f s = (chunks n xs).foldlM f s := by
  rcases Nat.eq_zero_or_pos n with rfl | hn
  · rw [drain, if_pos rfl, chunks_zero, List.foldlM_nil]
  induction xs using fill_induct hn generalizing s with
  | nil =>
    rw [drain, if_neg (Nat.ne_of_gt hn), chunks_nil, List.foldlM_nil]
    simp [hn]
  | fill xs hxs ih =>
    rw [drain, if_neg (Nat.ne_of_gt hn), chunks_of_ne_nil hn hxs, List.foldlM_cons]
    have hfilled : (xs.take n).isEmpty = false := by
      cases xs with
      | nil => exact absurd rfl hxs
      | cons x xs => cases n <;> simp at hn ⊢
    simp only [hfilled]
    refine congrArg (f s (xs.take n) >>= ·) (funext fun t => ?_)
    split_ifs with hshort
    · rw [List.length_take] at hshort
      rw [List.drop_eq_nil_of_le (by omega), chunks_nil, List.foldlM_nil]
    · exact ih t

/-- The size of the buffer does not matter where every chunk is gone through entry by entry. -/
theorem drain_foldlM {m : Type → Type} [Monad m] [LawfulMonad m] (hn : 0 < n)
    (f : σ → α → m σ) (xs : List α) (s : σ) :
    drain n xs (fun s c => c.foldlM f s) s = xs.foldlM f s := by
  rw [drain_eq, foldlM_chunks hn]

theorem mem_of_mem_chunks {xs c : List α} (hc : c ∈ chunks n xs) {x : α} (hx : x ∈ c) :
    x ∈ xs := by
  rcases Nat.eq_zero_or_pos n with rfl | hn
  · rw [chunks_zero] at hc
    cases hc
  · rw [← flatten_chunks hn xs]
    exact List.mem_flatten.mpr ⟨c, hc, hx⟩

theorem nodup_of_mem_chunks {xs c : List α} (hxs : xs.Nodup) (hc : c ∈ chunks n xs) : c.Nodup := by
  rcases Nat.eq_zero_or_pos n with rfl | hn
  · rw [chunks_zero] at hc
    cases hc
  · rw [← flatten_chunks hn xs] at hxs
    exact hxs.sublist (List.sublist_flatten_of_mem hc)

end Chunks

/-! ### Lookups -/

theorem mem_of_lookup {α κ : Type} [BEq κ] [LawfulBEq κ] {members : List (κ × α)} {k : κ} {a : α}
    (h : members.lookup k = some a) : (k, a) ∈ members := by
  obtain ⟨before, after, happ, -⟩ := List.lookup_eq_some_iff.mp h
  rw [happ]
  exact List.mem_append_right _ List.mem_cons_self

/-- Where no key comes twice, every member is what is found by its key. -/
theorem lookup_eq_some_iff_mem {α κ : Type} [BEq κ] [LawfulBEq κ] {members : List (κ × α)}
    (hk : (members.map (·.1)).Nodup) {k : κ} {a : α} :
    members.lookup k = some a ↔ (k, a) ∈ members := by
  refine ⟨mem_of_lookup, fun h => ?_⟩
  cases hl : members.lookup k with
  | none =>
    have hne := List.lookup_eq_none_iff.mp hl _ h
    simp at hne
  | some other =>
    cases List.inj_on_of_nodup_map hk (mem_of_lookup hl) h rfl
    rfl

end Cohort
