import NodeKeeper.Fault.Basic

/-!
# Flows

A lifecycle flow talks to a world of type `ω`: it reads and changes it step by step, and ends with
a result or a fault. A flow can also be observed for too short a time to see its end.

## Main definitions

* `Ending` — how a flow ends.
* `Flow` — a flow over worlds `ω`.
* `Flow.attempt` — running a flow so that its fault becomes a result.

## Implementation notes

A flow is a function on worlds, so that everything it does to the world it started in can be read
off. Cancellation is a fault like any other; it is its kind that keeps a flow from handling it.
-/

namespace NodeKeeper

/-- How a flow ends. -/
inductive Ending (α : Type) where
  | returned (a : α)
  | raised (f : Fault)
  /-- The flow was still running when the observation ended. -/
  | unfinished

/-- A flow over worlds `ω` with a result in `α`. -/
def Flow (ω α : Type) : Type := ω → Ending α × ω

namespace Flow

variable {ω α β : Type}

/-- Runs a flow and then what depends on its result. -/
def andThen (x : Flow ω α) (f : α → Flow ω β) : Flow ω β := fun w =>
  match x w with
  | (.returned a, w') => f a w'
  | (.raised e, w') => (.raised e, w')
  | (.unfinished, w') => (.unfinished, w')

instance : Monad (Flow ω) where
  pure a := fun w => (.returned a, w)
  bind := andThen

/-- A flow that ends with a fault. -/
def raise (f : Fault) : Flow ω α := fun w => (.raised f, w)

/-- Reads the world. -/
def read : Flow ω ω := fun w => (.returned w, w)

/-- Changes the world. -/
def change (g : ω → ω) : Flow ω Unit := fun w => (.returned (), g w)

/-- The result of a computation that touches no world. -/
def ofExcept : Except Fault α → Flow ω α
  | .ok a => pure a
  | .error f => raise f

/-- Runs a flow so that its fault becomes a result. -/
def attempt (x : Flow ω α) : Flow ω (Except Fault α) := fun w =>
  match x w with
  | (.returned a, w') => (.returned (.ok a), w')
  | (.raised e, w') => (.returned (.error e), w')
  | (.unfinished, w') => (.unfinished, w')

end Flow

end NodeKeeper
