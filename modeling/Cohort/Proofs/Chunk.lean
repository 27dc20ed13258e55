import Cohort.Proofs.Loops
import Cohort.Proofs.Outcome

/-!
# Chunks — what is handed over while a list is drained

`Cuts n xs cs`: the chunks `cs` are the list `xs`, cut from the front; all of them but the last are
full, and none is empty. Draining hands over such chunks, in their order, and nothing else. `logged`
keeps what a function was handed, so that this can be said of a function that stops it as well: the
chunk that it stops at is the last one it sees.
-/

namespace Cohort

variable {α σ ε : Type}

/-- The chunks that a buffer of `n` entries cuts `xs` into. -/
structure Cuts (n : Nat) (xs : List α) (cs : List (List α)) : Prop where
  flatten_eq : cs.flatten = xs
  ne_nil : ∀ c ∈ cs, c ≠ []
  length_le : ∀ c ∈ cs, c.length ≤ n
  full : ∀ c ∈ cs.dropLast, c.length = n

/-- One more fill in front of the chunks of what it leaves. Where it leaves something, it was a full
one. -/
theorem Cuts.fill {n : Nat} (hn : 0 < n) {xs : List α} (hxs : xs ≠ []) {cs : List (List α)}
    (h : Cuts n (xs.drop n) cs) : Cuts n xs (xs.take n :: cs) := by
  have hpos : 0 < xs.length := List.length_pos_iff.mpr hxs
  refine ⟨?_, ?_, ?_, ?_⟩
  · rw [List.flatten_cons, h.flatten_eq, List.take_append_drop]
  · refine List.forall_mem_cons.mpr ⟨?_, h.ne_nil⟩
    rw [← List.length_pos_iff, List.length_take]
    omega
  · exact List.forall_mem_cons.mpr ⟨List.length_take_le n xs, h.length_le⟩
  · cases cs with
    | nil => exact nofun
    | cons c cs =>
      rw [List.dropLast_cons_cons]
      refine List.forall_mem_cons.mpr ⟨?_, h.full⟩
      have hleft : xs.drop n ≠ [] := by
        rw [← h.flatten_eq, List.flatten_cons]
        exact List.append_ne_nil_of_left_ne_nil (h.ne_nil c List.mem_cons_self) _
      have := List.length_pos_iff.mpr hleft
      rw [List.length_drop] at this
      rw [List.length_take]
      omega

theorem cuts_chunks {n : Nat} (hn : 0 < n) (xs : List α) : Cuts n xs (chunks n xs) := by
  induction xs using fill_induct hn with
  | nil =>
    rw [chunks_nil]
    exact ⟨rfl, nofun, nofun, nofun⟩
  | fill xs hxs ih =>
    rw [chunks_of_ne_nil hn hxs]
    exact ih.fill hn hxs

/-! ### A log of the chunks -/

/-- Does what `f` does, and keeps the chunk in a log first. -/
def logged (f : σ → List α → Except ε σ) (s : σ) (c : List α) :
    EStateM ε (List (List α)) σ := do
  modify (· ++ [c])
  match f s c with
  | .ok t => pure t
  | .error e => throw e

/-- A loop that keeps a log, one chunk further. -/
theorem foldlM_logged_cons (f : σ → List α → Except ε σ) (s : σ) (c : List α)
    (cs log : List (List α)) : (c :: cs).foldlM (logged f) s log = match f s c with
      | .ok t => cs.foldlM (logged f) t (log ++ [c])
      | .error e => .error e (log ++ [c]) := by
  rw [List.foldlM_cons]
  show EStateM.bind (fun log => (match f s c with
    | .ok t => pure t
    | .error e => throw e : EStateM ε (List (List α)) σ) (log ++ [c])) _ log = _
  cases f s c <;> rfl

/-- Chunks that went through are all in the log, and what comes after them goes on from there. -/
theorem foldlM_logged {f : σ → List α → Except ε σ} {done : List (List α)} {s t : σ}
    (h : done.foldlM f s = .ok t) (rest log : List (List α)) :
    (done ++ rest).foldlM (logged f) s log = rest.foldlM (logged f) t (log ++ done) := by
  induction done generalizing s log with
  | nil =>
    cases h
    rw [List.nil_append, List.append_nil]
  | cons c done ih =>
    rw [List.foldlM_cons] at h
    obtain ⟨u, hc, h⟩ := exists_of_bind_ok h
    rw [List.cons_append, foldlM_logged_cons, hc]
    simp only [ih h, List.append_assoc, List.singleton_append]

/-- A list is drained in chunks that are the list, cut up, whatever is done with them. A function
that never stops is handed all of them, and one that stops is handed those before and the one that
it stops at; the error is the one that it gave. -/
theorem drain_hands_over {n : Nat} (hn : 0 < n) (xs : List α) : ∃ cs, Cuts n xs cs ∧
    (∀ {σ : Type} {m : Type → Type} [Monad m] [LawfulMonad m] (f : σ → List α → m σ) (s : σ),
      drain n xs f s = cs.foldlM f s) ∧
    (∀ {σ ε : Type} (f : σ → List α → σ) (s : σ),
      drain n xs (logged fun t c => (.ok (f t c) : Except ε σ)) s [] = .ok (cs.foldl f s) cs) ∧
    ∀ {σ ε : Type} (f : σ → List α → Except ε σ) (s t : σ) (done rest : List (List α))
      (c : List α) (e : ε), cs = done ++ c :: rest → done.foldlM f s = .ok t →
      f t c = .error e →
      drain n xs f s = .error e ∧ drain n xs (logged f) s [] = .error e (done ++ [c]) := by
  refine ⟨chunks n xs, cuts_chunks hn xs, fun f s => drain_eq n xs f s, ?_, ?_⟩
  · intro σ ε f s
    have hall : (chunks n xs).foldlM (fun t c => (.ok (f t c) : Except ε σ)) s =
        .ok ((chunks n xs).foldl f s) := List.foldlM_pure
    have h := foldlM_logged hall [] []
    rw [List.append_nil] at h
    rw [drain_eq, h]
    rfl
  · intro σ ε f s t done rest c e hcs hdone hc
    rw [drain_eq, drain_eq, hcs]
    constructor
    · rw [List.foldlM_append, hdone]
      show (c :: rest).foldlM f t = .error e
      rw [List.foldlM_cons, hc]
      rfl
    · rw [foldlM_logged hdone, foldlM_logged_cons, hc, List.nil_append]

/-- A list that fills a buffer twice is handed over in two chunks, without an empty third one; a
function that stops at the first of them is not handed the second. -/
theorem drain_hands_over_pairs : ∃ cs, Cuts 2 [0, 2, 5, 7] cs ∧ cs = [[0, 2], [5, 7]] ∧
    drain 2 [0, 2, 5, 7] (logged fun s c => if 2 ∈ c then .error "two" else .ok (s + c.length))
      0 [] = .error "two" [[0, 2]] := by
  obtain ⟨cs, hcuts, -, hall, hstop⟩ := drain_hands_over (show 0 < 2 by decide) [0, 2, 5, 7]
  have hrun : drain 2 [0, 2, 5, 7]
      (logged fun s c => (.ok (s + c.length) : Except String Nat)) 0 [] =
      .ok 4 [[0, 2], [5, 7]] := by
    rw [drain_eq, show chunks 2 [0, 2, 5, 7] = [[0, 2], [5, 7]] by simp [chunks]]
    rfl
  have hlog := hall (ε := String) (fun s c => s + c.length) 0
  rw [hrun] at hlog
  obtain rfl : [[0, 2], [5, 7]] = cs := by injection hlog
  exact ⟨_, hcuts, rfl, (hstop _ 0 0 [] [[5, 7]] [0, 2] "two" rfl rfl rfl).2⟩

end Cohort
