import NodeKeeper.Flow
import NodeKeeper.Log

/-!
# Bounded waits

A check is repeated until it passes or a deadline has gone by. Every attempt that fails is followed
by a pause, so the whole wait takes less than the time allowed, one pause and the last check. Some
kinds of faults count as "not yet"; any other ends the wait.

## Main definitions

* `Poll.Settings` — how long to wait, how long to pause, and which faults are transient.
* `Poll.Instruments` — the clock, the pause and the journal of a wait.
* `Poll.Outcome` — how a wait ended.
* `Poll.poll` — the wait.

## Implementation notes

Instants and durations are of any type with a zero, a difference and an order, so that the same
wait runs on doubles and can be reasoned about on exact numbers. A wait need not end: pauses may be
too short to move the clock. It is therefore observed for a given number of pauses, and is
`unfinished` if they are used up.
-/

namespace NodeKeeper.Poll

/-- How to wait. -/
structure Settings (τ : Type) where
  period : τ
  timeout : τ
  /-- The kinds of faults that count as "not yet". -/
  transient : List Fault.Kind := []
  label : String := "resource"

/-- How a wait ended. -/
structure Outcome (τ : Type) where
  ready : Bool
  attempts : Nat
  elapsed : τ
deriving DecidableEq, Repr

/-- What a wait reports on its way. -/
inductive Note (τ : Type) where
  | transientFault (attempt : Nat) (message : String)
  | notReady (attempt : Nat)
  | ready (attempts : Nat) (elapsed : τ)
  | timedOut (attempts : Nat) (elapsed timeout : τ)

/-- What a wait needs from its world. -/
structure Instruments (τ ω : Type) where
  /-- The reading of the clock. -/
  now : ω → τ
  /-- Lets a duration pass. -/
  pause : τ → Flow ω Unit
  /-- Keeps a note. -/
  note : Note τ → ω → ω
  /-- A duration inside a message. -/
  written : τ → String

variable {τ ω : Type}

/-- The fault counts as "not yet". -/
def Settings.forgives (s : Settings τ) (f : Fault) : Bool := s.transient.any f.isA

/-- One attempt: the answer of the check. A transient fault counts as a "no". -/
def attempt (ins : Instruments τ ω) (s : Settings τ) (check : Flow ω Bool) (n : Nat) :
    Flow ω Bool := fun w =>
  match check w with
  | (.returned true, w) => (.returned true, w)
  | (.returned false, w) => (.returned false, ins.note (.notReady n) w)
  | (.raised f, w) =>
    if s.forgives f then (.returned false, ins.note (.transientFault n f.message) w)
    else (.raised f, w)
  | (.unfinished, w) => (.unfinished, w)

section Wait

variable [Sub τ] [LE τ] [DecidableLE τ]

/-- Notes how the wait ended. -/
def conclude (ins : Instruments τ ω) (s : Settings τ) (ready : Bool) (attempts : Nat)
    (started : τ) : Flow ω (Outcome τ) := fun w =>
  let elapsed := ins.now w - started
  let note := if ready then .ready attempts elapsed else .timedOut attempts elapsed s.timeout
  (.returned ⟨ready, attempts, elapsed⟩, ins.note note w)

/-- The wait after `n` attempts, observed for so many pauses. The deadline is looked at only after
an attempt that failed. -/
def pollFrom (ins : Instruments τ ω) (s : Settings τ) (check : Flow ω Bool) (started : τ) :
    Nat → Nat → Flow ω (Outcome τ)
  | horizon, n => fun w =>
    match attempt ins s check (n + 1) w with
    | (.returned true, w) => conclude ins s true (n + 1) started w
    | (.returned false, w) =>
      if s.timeout ≤ ins.now w - started then conclude ins s false (n + 1) started w
      else
        match horizon with
        | 0 => (.unfinished, w)
        | more + 1 =>
          match ins.pause s.period w with
          | (.returned _, w) => pollFrom ins s check started more (n + 1) w
          | (.raised f, w) => (.raised f, w)
          | (.unfinished, w) => (.unfinished, w)
    | (.raised f, w) => (.raised f, w)
    | (.unfinished, w) => (.unfinished, w)

/-- Waits until the check passes or the deadline has gone by, observed for so many pauses. Time
allowed and pause have to be positive. -/
def poll [Zero τ] (ins : Instruments τ ω) (s : Settings τ) (check : Flow ω Bool) (horizon : Nat) :
    Flow ω (Outcome τ) := fun w =>
  if s.timeout ≤ 0 then
    (.raised (.badValue s!"timeout must be positive, got {ins.written s.timeout}"), w)
  else if s.period ≤ 0 then
    (.raised (.badValue s!"period must be positive, got {ins.written s.period}"), w)
  else pollFrom ins s check (ins.now w) horizon 0 w

end Wait

/-- The log event of a note. -/
def Note.event (label : String) : Note Float → Log.Event
  | transientFault n message =>
    ⟨.debug, "poller.transient_error",
      [("label", .text label), ("attempt", .int n), ("error", .text message)]⟩
  | notReady n => ⟨.debug, "poller.not_ready", [("label", .text label), ("attempt", .int n)]⟩
  | ready n elapsed =>
    ⟨.debug, "poller.ready",
      [("label", .text label), ("attempts", .int n), ("elapsed", .float elapsed)]⟩
  | timedOut n elapsed timeout =>
    ⟨.info, "poller.timed_out",
      [("label", .text label), ("attempts", .int n), ("elapsed", .float elapsed),
        ("timeout", .float timeout)]⟩

end NodeKeeper.Poll
