import Cohort.Error

/-!
# Outcomes — a small program logic for computations that may fail

`Ends x s ok err`: `x`, run from `s`, either gives a value and a state that satisfy `ok`, or fails
with a failure and a state that satisfy `err`. One rule for every way of building a computation.
Where a broken check ends a call nothing runs after it, so most conditions on failures only speak of
refusals: `OnRefusal`; `OnFailure` also says when a check may break. The last section takes checks
that came before a result apart.
-/

namespace Cohort

section Rules

variable {ε σ α β : Type}

/-- `x` run from `s` ends with `ok` of its value and state, or with `err` of its failure and
state. -/
def Ends (x : EStateM ε σ α) (s : σ) (ok : α → σ → Prop) (err : ε → σ → Prop) : Prop :=
  match x s with
  | .ok a s' => ok a s'
  | .error e s' => err e s'

variable {s : σ} {ok ok' : α → σ → Prop} {err err' : ε → σ → Prop}

theorem Ends.ok_of {x : EStateM ε σ α} (h : Ends x s ok err) {a : α} {s' : σ}
    (hx : x s = .ok a s') : ok a s' := by
  unfold Ends at h
  rw [hx] at h
  exact h

theorem Ends.err_of {x : EStateM ε σ α} (h : Ends x s ok err) {e : ε} {s' : σ}
    (hx : x s = .error e s') : err e s' := by
  unfold Ends at h
  rw [hx] at h
  exact h

theorem Ends.mono {x : EStateM ε σ α} (h : Ends x s ok err) (hok : ∀ a s', ok a s' → ok' a s')
    (herr : ∀ e s', err e s' → err' e s') : Ends x s ok' err' := by
  unfold Ends at h ⊢
  split at h
  · exact hok _ _ h
  · exact herr _ _ h

/-- What is known of a run from two sides holds at once. -/
theorem Ends.and {x : EStateM ε σ α} (h : Ends x s ok err) (h' : Ends x s ok' err') :
    Ends x s (fun a s' => ok a s' ∧ ok' a s') (fun e s' => err e s' ∧ err' e s') := by
  unfold Ends at h h' ⊢
  split at h <;> rename_i hx <;> rw [hx] at h' <;> exact ⟨h, h'⟩

/-- What a run gives is known to come from it. -/
theorem Ends.of_run {x : EStateM ε σ α} (h : Ends x s ok err) :
    Ends x s (fun a s' => ok a s' ∧ x s = .ok a s') err := by
  unfold Ends at h ⊢
  cases hx : x s with
  | ok a s' =>
    rw [hx] at h
    exact ⟨h, rfl⟩
  | error e s' =>
    rw [hx] at h
    exact h

/-- A run that cannot fail gives a value. -/
theorem Ends.exists_ok {x : EStateM ε σ α} (h : Ends x s ok fun _ _ => False) :
    ∃ a s', x s = .ok a s' ∧ ok a s' := by
  unfold Ends at h
  cases hx : x s with
  | ok a s' =>
    rw [hx] at h
    exact ⟨a, s', rfl, h⟩
  | error e s' =>
    rw [hx] at h
    exact h.elim

theorem ends_pure {a : α} (h : ok a s) : Ends (pure a) s ok err := h

theorem ends_throw {e : ε} (h : err e s) : Ends (throw e) s ok err := h

theorem ends_bind {x : EStateM ε σ β} {f : β → EStateM ε σ α}
    (h : Ends x s (fun b s' => Ends (f b) s' ok err) err) : Ends (x >>= f) s ok err := by
  unfold Ends at h
  show Ends (EStateM.bind x f) s ok err
  unfold Ends EStateM.bind
  split at h <;> rename_i hx <;> rw [hx] <;> exact h

theorem ends_map {x : EStateM ε σ β} {f : β → α} (h : Ends x s (fun b => ok (f b)) err) :
    Ends (f <$> x) s ok err := by
  unfold Ends at h
  show Ends (EStateM.map f x) s ok err
  unfold Ends EStateM.map
  split at h <;> rename_i hx <;> rw [hx] <;> exact h

theorem ends_get {ok : σ → σ → Prop} (h : ok s s) : Ends (get : EStateM ε σ σ) s ok err := h

theorem ends_modify {f : σ → σ} {ok : Unit → σ → Prop} (h : ok () (f s)) :
    Ends (modify f : EStateM ε σ Unit) s ok err := h

/-- A finalizer runs after success and after failure; if it fails itself, that is how it ends. -/
theorem ends_finally {x : EStateM ε σ α} {y : EStateM ε σ β}
    (h : Ends x s (fun a s' => Ends y s' (fun _ => ok a) err)
      (fun e s' => Ends y s' (fun _ => err e) err)) :
    Ends (tryFinally x y) s ok err := by
  unfold Ends at h
  show Ends (EStateM.map Prod.fst (tryFinally' x fun _ => y)) s ok err
  unfold Ends EStateM.map
  simp only [tryFinally']
  split at h <;> rename_i hx <;> rw [hx] <;> (split at h <;> rename_i hy <;> simp only [hy]) <;>
    exact h

theorem ends_catch {x : EStateM ε σ α} {handle : ε → EStateM ε σ α}
    (h : Ends x s ok (fun e s' => Ends (handle e) s' ok err)) :
    Ends (tryCatch x handle) s ok err := by
  unfold Ends at h
  show Ends (EStateM.tryCatch x handle) s ok err
  unfold Ends EStateM.tryCatch
  split at h <;> rename_i hx <;> simp only [hx] <;> exact h

/-- Whether a run gave a value. -/
def answers : EStateM.Result ε σ α → Bool
  | .ok _ _ => true
  | .error _ _ => false

theorem exists_of_answers {r : EStateM.Result ε σ α} (h : answers r = true) :
    ∃ a s', r = .ok a s' := by
  cases r with
  | ok a s' => exact ⟨a, s', rfl⟩
  | error e s' => cases h

end Rules

/-! ### Failures -/

section Failures

variable {σ α : Type} {s : σ} {ok : α → σ → Prop} {err : Failure → σ → Prop}

/-- `P` of the error and the state after a refusal. -/
def OnRefusal (P : Error → σ → Prop) : Failure → σ → Prop
  | .refused e, s => P e s
  | .broken, _ => True

/-- `refused` of the error and the state after a refusal; a check breaks only if `broken`. -/
def OnFailure (refused : Error → σ → Prop) (broken : Prop) : Failure → σ → Prop
  | .refused e, s => refused e s
  | .broken, _ => broken

theorem onFailure_true (P : Error → σ → Prop) : OnFailure P True = OnRefusal P := by
  funext e s
  cases e <;> rfl

theorem ends_orBroken {o : Option α} (hok : ∀ a, o = some a → ok a s)
    (herr : o = none → err .broken s) : Ends (orBroken o) s ok err := by
  cases o with
  | none => exact ends_throw (herr rfl)
  | some a => exact ends_pure (hok a rfl)

theorem ends_orRefused {r : Except Error α} (hok : ∀ a, r = .ok a → ok a s)
    (herr : ∀ e, r = .error e → err (.refused e) s) : Ends (orRefused r) s ok err := by
  cases r with
  | error e => exact ends_throw (herr e rfl)
  | ok a => exact ends_pure (hok a rfl)

/-- A check that went through left the state as it was. -/
theorem orRefused_ok {r : Except Error α} {a : α} {s' : σ}
    (h : (orRefused r : EStateM Failure σ α) s = .ok a s') : r = .ok a ∧ s' = s := by
  cases r with
  | error e => cases h
  | ok b =>
    cases h
    exact ⟨rfl, rfl⟩

/-- A loop never breaks whose steps never do from states with the invariant. -/
theorem foldlM_unbroken {β : Type} {f : β → α → Except Failure β} {xs : List α} (I : β → Prop)
    {b : β} (hb : I b)
    (step : ∀ x ∈ xs, ∀ c, I c →
      (∃ c', f c x = .ok c' ∧ I c') ∨ ∃ e, f c x = .error (.refused e)) :
    (∃ b', xs.foldlM f b = .ok b' ∧ I b') ∨ ∃ e, xs.foldlM f b = .error (.refused e) := by
  induction xs generalizing b with
  | nil => exact .inl ⟨b, rfl, hb⟩
  | cons x xs ih =>
    rw [List.foldlM_cons]
    rcases step x List.mem_cons_self b hb with ⟨c, hc, hI⟩ | ⟨e, he⟩
    · rw [hc]
      exact ih hI fun y hy => step y (List.mem_cons_of_mem _ hy)
    · rw [he]
      exact .inr ⟨e, rfl⟩

end Failures

/-! ### Checks -/

/-- A bad argument, or too few bytes: nothing that depends on what the documents hold. -/
def Error.IsArgumentOrMemory : Error → Prop
  | .outOfMemory _ | .invalidArgument _ => True
  | .illegalState _ | .invalidRegex _ => False

section Checks

variable {ε α β : Type}

/-- A computation that may be refused succeeds when both of its parts do. -/
theorem exists_of_bind_ok {x : Except ε α} {f : α → Except ε β} {b : β}
    (h : x >>= f = .ok b) : ∃ a, x = .ok a ∧ f a = .ok b := by
  cases x with
  | error e => cases h
  | ok a => exact ⟨a, rfl, h⟩

theorem require_error {ok : Bool} {cause : ArgumentError} {e : Error}
    (h : require ok cause = .error e) : e = .invalidArgument cause := by
  cases ok with
  | false => exact (Except.error.inj h).symm
  | true => cases h

/-- A computation that is refused was refused in one of its parts. -/
theorem error_of_bind {x : Except ε α} {f : α → Except ε β} {e : ε} (h : x >>= f = .error e) :
    x = .error e ∨ ∃ a, x = .ok a ∧ f a = .error e := by
  cases x with
  | error e' => exact .inl (congrArg Except.error (Except.error.inj h))
  | ok a => exact .inr ⟨a, rfl, h⟩

theorem require_ok {ok : Bool} {cause : ArgumentError} {u : Unit}
    (h : require ok cause = .ok u) : ok = true := by
  cases ok with
  | false => cases h
  | true => rfl

/-- What follows a check runs when it holds. -/
theorem require_bind_ok {ok : Bool} {cause : ArgumentError} {f : Unit → Except Error α} {a : α}
    (h : require ok cause >>= f = .ok a) : ok = true ∧ f () = .ok a := by
  obtain ⟨_, hok, h⟩ := exists_of_bind_ok h
  exact ⟨require_ok hok, h⟩

/-- A check that is not passed is what was refused, else what follows it. -/
theorem require_bind_error {ok : Bool} {cause : ArgumentError} {f : Unit → Except Error α}
    {e : Error} (h : require ok cause >>= f = .error e) :
    (ok = false ∧ e = .invalidArgument cause) ∨ (ok = true ∧ f () = .error e) := by
  cases ok with
  | false => exact .inl ⟨rfl, (Except.error.inj h).symm⟩
  | true => exact .inr ⟨rfl, h⟩

end Checks

end Cohort
