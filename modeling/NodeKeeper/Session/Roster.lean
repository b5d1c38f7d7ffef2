import NodeKeeper.Session.Basic

/-!
# Callers by name

From outside, the callers of a session go by names. A name stands for the caller that came in under
it last, until that caller has finished.

## Main definitions

* `Roster` — a session, and the callers by their names.
* `Roster.enter`, `Roster.cancel` — callers that come in, and a caller that is cancelled.
* `Roster.collect` — those who have finished meanwhile.
-/

namespace NodeKeeper

/-- A caller under its name, and what it came for, in a word. -/
structure Seat where
  name : String
  caller : Nat
  purpose : String
deriving Repr, DecidableEq

/-- A session, and the callers by their names. -/
structure Roster (σ κ ν τ α φ δ : Type) where
  session : Session σ κ ν τ α φ δ
  seats : List Seat := []

namespace Roster

variable {σ κ ν τ α φ δ : Type}

/-- A caller comes in under a name, at its first phase. -/
def enter (r : Roster σ κ ν τ α φ δ) (purpose : String) (phase : φ) (name : String) :
    Roster σ κ ν τ α φ δ :=
  let (caller, session) := r.session.spawn phase
  ⟨session, (r.seats.filter fun x => x.name ≠ name) ++ [⟨name, caller, purpose⟩]⟩

/-- Cancels the caller of a name. Tells whether it had not finished. -/
def cancel (r : Roster σ κ ν τ α φ δ) (name : String) : Bool × Roster σ κ ν τ α φ δ :=
  match r.seats.find? fun x => x.name == name with
  | some x =>
    let (pending, session) := r.session.cancel x.caller
    (pending, { r with session })
  | none => (false, r)

/-- How a caller finished, if it has. -/
def outcome? (r : Roster σ κ ν τ α φ δ) (x : Seat) : Option (Outcome ν) :=
  match r.session.callers[x.caller]? with
  | some (.finished o) => some o
  | _ => none

/-- Those who have finished, and the others. -/
def collect (r : Roster σ κ ν τ α φ δ) :
    List (Seat × Outcome ν) × Roster σ κ ν τ α φ δ :=
  (r.seats.filterMap fun x => (r.outcome? x).map fun o => (x, o),
    { r with seats := r.seats.filter fun x => (r.outcome? x).isNone })

/-- The names of those who have not finished, in order. -/
def waiting (r : Roster σ κ ν τ α φ δ) : List String :=
  (r.seats.map Seat.name).mergeSort fun a b => decide (a ≤ b)

end Roster

end NodeKeeper
