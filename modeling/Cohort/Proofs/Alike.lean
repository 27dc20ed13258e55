import Cohort.Proofs.Outcome

/-!
# Alike — two runs that differ only in what they may claim

`Alike strict R r r'`: two runs, of perhaps different computations from perhaps different states,
ended alike. They gave the same value, or were refused with the same error, and left states in `R`;
or both broke. A run that was refused for want of memory is like any other: memory decides whether a
call goes through and not what it does. If `strict`, only the left one may run out. One rule for
every way of building a computation.
-/

namespace Cohort

section Rules

variable {σ α β : Type} {strict : Prop} {R : σ → σ → Prop} {s s' : σ}

inductive Alike (strict : Prop) (R : σ → σ → Prop) :
    EStateM.Result Failure σ α → EStateM.Result Failure σ α → Prop
  | ok {a : α} {t t' : σ} (h : R t t') : Alike strict R (.ok a t) (.ok a t')
  | refused {e : Error} {t t' : σ} (h : R t t') :
      Alike strict R (.error (.refused e) t) (.error (.refused e) t')
  | broken {t t' : σ} : Alike strict R (.error .broken t) (.error .broken t')
  | leftShort {m : Memory.Shortage} {t : σ} {r' : EStateM.Result Failure σ α} :
      Alike strict R (.error (.refused (.outOfMemory m)) t) r'
  | rightShort {m : Memory.Shortage} {t' : σ} {r : EStateM.Result Failure σ α} (h : ¬ strict) :
      Alike strict R r (.error (.refused (.outOfMemory m)) t')

theorem alike_pure {a : α} (h : R s s') :
    Alike strict R ((pure a : EStateM Failure σ α) s) ((pure a : EStateM Failure σ α) s') :=
  .ok h

theorem alike_throw {e : Failure} (h : R s s') :
    Alike strict R ((throw e : EStateM Failure σ α) s) ((throw e : EStateM Failure σ α) s') := by
  cases e with
  | refused e => exact .refused h
  | broken => exact .broken

/-- What follows runs from related states with the same value. -/
theorem alike_bind {x y : EStateM Failure σ β} {f f' : β → EStateM Failure σ α}
    (h : Alike strict R (x s) (y s'))
    (hf : ∀ b t t', R t t' → x s = .ok b t → y s' = .ok b t' →
      Alike strict R (f b t) (f' b t')) :
    Alike strict R ((x >>= f) s) ((y >>= f') s') := by
  show Alike strict R (EStateM.bind x f s) (EStateM.bind y f' s')
  unfold EStateM.bind
  generalize hx : x s = r at h hf
  generalize hy : y s' = r' at h hf
  cases h with
  | ok h => exact hf _ _ _ h rfl rfl
  | refused h => exact .refused h
  | broken => exact .broken
  | leftShort => exact .leftShort
  | rightShort h => exact .rightShort h

theorem alike_map {x y : EStateM Failure σ β} {f : β → α} (h : Alike strict R (x s) (y s')) :
    Alike strict R ((f <$> x) s) ((f <$> y) s') := by
  show Alike strict R (EStateM.map f x s) (EStateM.map f y s')
  unfold EStateM.map
  generalize x s = r at h
  generalize y s' = r' at h
  cases h with
  | ok h => exact .ok h
  | refused h => exact .refused h
  | broken => exact .broken
  | leftShort => exact .leftShort
  | rightShort h => exact .rightShort h

theorem alike_get_bind {f f' : σ → EStateM Failure σ α}
    (h : Alike strict R (f s s) (f' s' s')) : Alike strict R ((get >>= f) s) ((get >>= f') s') := h

theorem alike_modify {f f' : σ → σ} (h : R (f s) (f' s')) :
    Alike strict R ((modify f : EStateM Failure σ Unit) s)
      ((modify f' : EStateM Failure σ Unit) s') :=
  .ok h

theorem alike_orBroken {o : Option α} (h : R s s') :
    Alike strict R ((orBroken o : EStateM Failure σ α) s)
      ((orBroken o : EStateM Failure σ α) s') := by
  cases o with
  | none => exact .broken
  | some a => exact .ok h

theorem alike_orRefused {r : Except Error α} (h : R s s') :
    Alike strict R ((orRefused r : EStateM Failure σ α) s)
      ((orRefused r : EStateM Failure σ α) s') := by
  cases r with
  | error e => exact .refused h
  | ok a => exact .ok h

/-- A handler that passes on what it handles. -/
theorem alike_catch {x y : EStateM Failure σ α} {handle handle' : Failure → EStateM Failure σ α}
    (h : Alike strict R (x s) (y s'))
    (hrefused : ∀ e t t', R t t' → x s = .error (.refused e) t → y s' = .error (.refused e) t' →
      Alike strict R (handle (.refused e) t) (handle' (.refused e) t'))
    (hbroken : ∀ t t', Alike strict R (handle .broken t) (handle' .broken t'))
    (hleft : ∀ e t, x s = .error (.refused e) t →
      ∃ w, handle (.refused e) t = .error (.refused e) w)
    (hright : ∀ e t, y s' = .error (.refused e) t →
      ∃ w, handle' (.refused e) t = .error (.refused e) w) :
    Alike strict R (tryCatch x handle s) (tryCatch y handle' s') := by
  show Alike strict R (EStateM.tryCatch x handle s) (EStateM.tryCatch y handle' s')
  unfold EStateM.tryCatch
  generalize hx : x s = r at h hrefused hleft
  generalize hy : y s' = r' at h hrefused hright
  cases h with
  | ok h => exact .ok h
  | refused h => exact hrefused _ _ _ h rfl rfl
  | broken => exact hbroken _ _
  | @leftShort m t _ =>
    obtain ⟨w, hw⟩ := hleft _ _ rfl
    simp only [EStateM.Backtrackable.restore, EStateM.dummyRestore, hw]
    exact .leftShort
  | @rightShort m t' _ hs =>
    obtain ⟨w, hw⟩ := hright _ _ rfl
    simp only [EStateM.Backtrackable.restore, EStateM.dummyRestore, hw]
    exact .rightShort hs

/-- A finalizer that either works or breaks. -/
theorem alike_finally {x y : EStateM Failure σ α} {u v : EStateM Failure σ Unit}
    {P Q : σ → Prop} (h : Alike strict R (x s) (y s'))
    (hx : Ends x s (fun _ t => P t) (OnRefusal fun _ t => P t))
    (hy : Ends y s' (fun _ t => Q t) (OnRefusal fun _ t => Q t))
    (hu : ∀ t, P t → ∃ w, u t = .ok () w) (hv : ∀ t, Q t → ∃ w, v t = .ok () w)
    (huv : ∀ t t' w w', P t → Q t' → R t t' → u t = .ok () w → v t' = .ok () w' → R w w')
    (hbroken : ∀ t, (∃ w, u t = .ok () w) ∨ u t = .error .broken t)
    (hbroken' : ∀ t, (∃ w, v t = .ok () w) ∨ v t = .error .broken t) :
    Alike strict R (tryFinally x u s) (tryFinally y v s') := by
  show Alike strict R (EStateM.map Prod.fst (tryFinally' x fun _ => u) s)
    (EStateM.map Prod.fst (tryFinally' y fun _ => v) s')
  unfold Ends at hx hy
  unfold EStateM.map
  simp only [tryFinally']
  generalize x s = r at h hx
  generalize y s' = r' at h hy
  cases h with
  | @ok a t t' h =>
    obtain ⟨w, hw⟩ := hu t hx
    obtain ⟨w', hw'⟩ := hv t' hy
    simp only [hw, hw']
    exact .ok (huv t t' w w' hx hy h hw hw')
  | @refused e t t' h =>
    obtain ⟨w, hw⟩ := hu t hx
    obtain ⟨w', hw'⟩ := hv t' hy
    simp only [hw, hw']
    exact .refused (huv t t' w w' hx hy h hw hw')
  | @broken t t' =>
    -- nothing is known of a state that broke, so the finalizers may break as well
    rcases hbroken t with ⟨w, hw⟩ | hw <;> rcases hbroken' t' with ⟨w', hw'⟩ | hw' <;>
      simp only [hw, hw'] <;> exact .broken
  | @leftShort m t r' =>
    obtain ⟨w, hw⟩ := hu t hx
    simp only [hw]
    exact .leftShort
  | @rightShort m t' r hs =>
    obtain ⟨w', hw'⟩ := hv t' hy
    simp only [hw']
    exact .rightShort hs

/-- A finalizer that only changes the state. -/
theorem alike_finally_modify {x y : EStateM Failure σ α} {f f' : σ → σ}
    (h : Alike strict R (x s) (y s')) (hR : ∀ t t', R t t' → R (f t) (f' t')) :
    Alike strict R (tryFinally x (modify f) s) (tryFinally y (modify f') s') := by
  have hends : ∀ {z : EStateM Failure σ α} {s : σ},
      Ends z s (fun _ _ => True) (OnRefusal fun _ _ => True) := by
    intro z s
    unfold Ends
    split
    · trivial
    · rename_i e _ _
      cases e <;> trivial
  refine alike_finally (P := fun _ => True) (Q := fun _ => True) h hends hends
    (fun t _ => ⟨f t, rfl⟩) (fun t _ => ⟨f' t, rfl⟩) ?_ (fun t => .inl ⟨f t, rfl⟩)
    fun t => .inl ⟨f' t, rfl⟩
  rintro t t' w w' - - ht hw hw'
  cases hw
  cases hw'
  exact hR t t' ht

end Rules

end Cohort
