import Mathlib.Tactic.Lemma
import NodeKeeper.Fault.Basic

/-!
# Faults that end a computation

Cancellation is a kind of its own: nothing lies below it, and only the most general kind lies above.
A flow that handles ordinary faults alone can therefore not hold a cancellation back.

## Main results

* `exists_of_bind_eq_ok` — what has a result met no fault on the way.
* `Fault.Kind.isA_cancelled_iff` — no other kind is a cancellation.
* `Fault.isA_eq_false_of_cancelled` — a cancellation is of no kind that is ordinary.
-/

namespace NodeKeeper

/-- A computation with a result goes on with the result of its first part. -/
lemma exists_of_bind_eq_ok {ε α β : Type} {x : Except ε α} {f : α → Except ε β} {b : β}
    (h : x >>= f = .ok b) : ∃ a, x = .ok a ∧ f a = .ok b := by
  cases x with
  | error e => exact absurd h (by simp [bind, Except.bind])
  | ok a => exact ⟨a, rfl, h⟩

namespace Fault

/-- No other kind is a cancellation. -/
lemma Kind.isA_cancelled_iff (k : Kind) : k.isA .cancelled = true ↔ k = .cancelled := by
  cases k <;> decide

/-- The kinds of which a cancellation is. -/
lemma Kind.cancelled_isA_iff (k : Kind) :
    Kind.cancelled.isA k = true ↔ k = .cancelled ∨ k = .anything := by
  cases k <;> decide

variable {f : Fault}

/-- A cancellation is of no kind that is ordinary. -/
lemma isA_eq_false_of_cancelled (hf : f.isA .cancelled = true) {k : Kind}
    (hk : k.isA .ordinary = true) : f.isA k = false := by
  rw [isA, Kind.isA_cancelled_iff] at hf
  rw [isA, hf]
  refine Bool.eq_false_iff.2 fun h => ?_
  rcases (Kind.cancelled_isA_iff k).1 h with rfl | rfl
  · exact absurd hk (by decide)
  · exact absurd hk (by decide)

/-- Being cancelled is not an ordinary fault, so that it is not handled where ordinary faults
are. -/
lemma isOrdinary_eq_false_of_cancelled (hf : f.isA .cancelled = true) : f.isOrdinary = false :=
  isA_eq_false_of_cancelled hf (by decide)

end Fault

end NodeKeeper
