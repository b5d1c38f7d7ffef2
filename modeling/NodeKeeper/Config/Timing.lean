import NodeKeeper.Config.Section
import NodeKeeper.Fault.Basic

/-!
# Timing of the flows

How long provisioning, teardown and imaging wait, and how long they pause between two looks. All are
given in milliseconds.

## Main definitions

* `Timing` — how long to wait, and how long to pause.
* `Timing.seconds` — the same in seconds.
* `ProvisionTiming`, `TeardownTiming`, `ImageTiming` — the three sections.
-/

namespace NodeKeeper.Config

open Section Setting

/-- How long a flow waits and how long it pauses, in milliseconds. -/
structure Timing where
  timeout : Int
  period : Int
deriving DecidableEq, Repr, Inhabited

/-- A number of milliseconds in seconds, unless that is beyond the largest double. -/
def secondsOf (n : Int) : Except Fault Float :=
  match Decimal.thousandths? n with
  | some x => .ok x
  | none => .error (.misfit .overflow "integer division result too large for a float")

/-- The time to wait and the pause in seconds. -/
def Timing.seconds (t : Timing) : Except Fault (Float × Float) := do
  return (← secondsOf t.timeout, ← secondsOf t.period)

/-- A section with a time to wait and a pause. The time is more than half a second, the pause at
least that. -/
def Timing.read (title timeoutName : String) (fallback : Timing) (v : Value) : Checked Timing :=
  match fields title v with
  | .error ps => .error ps
  | .ok fs =>
    Timing.mk <$> setting fs timeoutName (some fallback.timeout) (integerAbove 500)
      <*> setting fs "poll_period_ms" (some fallback.period) (integerAtLeast 500)

/-- The timing of provisioning if none is given. -/
def ProvisionTiming.default : Timing := ⟨1200000, 1000⟩

/-- The timing of provisioning. -/
def ProvisionTiming.read : Value → Checked Timing :=
  Timing.read "ProvisionConfig" "login_details_timeout_ms" ProvisionTiming.default

/-- The timing of teardown if none is given. -/
def TeardownTiming.default : Timing := ⟨180000, 1000⟩

/-- The timing of teardown. -/
def TeardownTiming.read : Value → Checked Timing :=
  Timing.read "TeardownConfig" "active_transactions_timeout_ms" TeardownTiming.default

/-- The timing of imaging if none is given. -/
def ImageTiming.default : Timing := ⟨1200000, 1000⟩

/-- The timing of imaging. -/
def ImageTiming.read : Value → Checked Timing :=
  Timing.read "ImageConfig" "image_available_timeout_ms" ImageTiming.default

end NodeKeeper.Config
