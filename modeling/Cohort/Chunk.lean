/-!
# Chunks: a list handed out through a buffer of fixed size

`drain` fills a buffer of `n` entries from the front of a list, again and again, and hands over
every fill that is not empty. A fill that leaves room in the buffer is the last one, so that a list
that ends with a full buffer takes one more fill, which is empty.

`chunks n xs` is what is handed over: every chunk is full except possibly the last, and none is
empty. A buffer without room hands over nothing.
-/

namespace Cohort

variable {α σ : Type}

def chunks : Nat → List α → List (List α)
  | 0, _ => []
  | _, [] => []
  | n + 1, x :: xs => (x :: xs.take n) :: chunks (n + 1) (xs.drop n)
termination_by _ xs => xs.length
decreasing_by simp only [List.length_drop, List.length_cons]; omega

/-- Hands `xs` to `f` through a buffer of `n` entries, as long as `f` does not stop it. -/
def drain {m : Type → Type} [Monad m] (n : Nat) (xs : List α) (f : σ → List α → m σ) (s : σ) :
    m σ :=
  if n = 0 then pure s
  else do
    let filled := xs.take n
    let s ← if filled.isEmpty then pure s else f s filled
    if filled.length < n then pure s else drain n (xs.drop n) f s
termination_by xs.length
decreasing_by simp only [filled, List.length_take, List.length_drop] at *; omega

end Cohort
