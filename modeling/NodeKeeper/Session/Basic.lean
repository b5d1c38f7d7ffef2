import NodeKeeper.Cache.Stage

/-!
# Sessions

Any number of callers use one cache at the same time. A caller runs until it has to wait: for a load
of the cache, or for an answer from outside. Loads run on their own, so that a load outlives the
callers that wait for it. Everything that can go on stands in a queue; a pass takes all turns that
are due.

## Main definitions

* `Client` — what the callers of a session do.
* `Session` — the callers, the loads, the gates that they wait at, and the turns that are due.
* `Session.spawn`, `Session.cancel`, `Session.release` — what is done to a session from outside.
* `Session.turn` — one turn of a caller or a load.
* `Session.pass`, `Session.run` — all turns that are due, and all that follow from them.

## Implementation notes

A caller is known by its place in the list of callers, a load by its number in the cache, which is
its place in the list of flights. A turn that is not due changes nothing, so every order of turns
is a run of the session; the queue picks the one in which they became due. A load that ends hands
its outcome to those who wait for it one by one, in the order in which they joined, and each of
them goes on in a later turn.
-/

namespace NodeKeeper

/-- How a load, an errand or a caller ends. -/
abbrev Outcome (ν : Type) : Type := Except Fault ν

/-- An answer from outside: the time that it took, what was done to the cache in the meantime, and
how it ended. -/
structure Answer (κ ν τ α : Type) where
  took : Option τ := none
  edits : List (Edit κ ν) := []
  outcome : Outcome α

/-- What comes back from outside: an answer at once, or the gate at which to wait for it. -/
inductive Response (κ ν τ α : Type) where
  | now (a : Answer κ ν τ α)
  | gate (name : String)

/-- What a caller does at the end of its turn. Its phase says where it goes on. -/
inductive Turn (ν φ δ : Type) where
  | done (r : Outcome ν)
  /-- Waits for a load; if the caller started it, with the job of the load. -/
  | wait (load : Nat) (job : Option δ) (phase : φ)
  /-- Does a job itself. -/
  | errand (job : δ) (phase : φ)

/-- What the callers of a session do, with phases in `φ`, jobs in `δ`, and answers in `α`. -/
structure Client (σ κ ν τ α φ δ : Type) where
  /-- The first turn of a caller. -/
  start : φ → Stage σ κ ν τ → Turn ν φ δ × Stage σ κ ν τ
  /-- The turn after a load has ended. -/
  resume : φ → Outcome ν → Stage σ κ ν τ → Turn ν φ δ × Stage σ κ ν τ
  /-- Asks outside for what a job needs. -/
  call : δ → Stage σ κ ν τ → Response κ ν τ α × Stage σ κ ν τ
  /-- What a job makes of the answer. -/
  conclude : δ → Outcome α → Stage σ κ ν τ → Outcome ν × Stage σ κ ν τ
  /-- What a caller makes of a job that it did itself. -/
  settle : φ → Outcome ν → Stage σ κ ν τ → Outcome ν × Stage σ κ ν τ

/-- Something that takes turns. -/
inductive Task where
  | caller (c : Nat)
  | load (l : Nat)
  /-- A load hands its outcome to a caller. -/
  | deliver (l c : Nat)
deriving DecidableEq, Repr

/-- Where a caller is. -/
inductive Caller (κ ν τ α φ δ : Type) where
  | fresh (phase : φ)
  | waiting (load : Nat) (phase : φ)
  /-- The load has ended, and the caller is about to go on. -/
  | answered (r : Outcome ν) (phase : φ)
  /-- Waits at a gate for the answer to its own job. -/
  | held (job : δ) (phase : φ)
  /-- The gate has opened. -/
  | freed (a : Answer κ ν τ α) (job : δ) (phase : φ)
  | cancelled
  | finished (r : Outcome ν)

/-- Where a load is. -/
inductive Progress (κ ν τ α : Type) where
  /-- Nothing has been asked for outside. -/
  | fresh
  /-- Waits at a gate for the answer. -/
  | held
  /-- The gate has opened. -/
  | freed (a : Answer κ ν τ α)
  | landed (r : Outcome ν)

/-- A load: its job, where it is, and the callers that joined it, in that order. -/
structure Flight (κ ν τ α δ : Type) where
  job : δ
  progress : Progress κ ν τ α := .fresh
  waiters : List Nat := []

/-- The callers, the loads, the gates that they wait at, and the turns that are due. -/
structure Session (σ κ ν τ α φ δ : Type) where
  stage : Stage σ κ ν τ
  callers : List (Caller κ ν τ α φ δ) := []
  flights : List (Flight κ ν τ α δ) := []
  /-- Who waits at a gate, in that order. -/
  gates : List (String × List Task) := []
  queue : List Task := []
  /-- The jobs that were asked for outside, in that order. -/
  calls : List δ := []

namespace Session

variable {σ κ ν τ α φ δ : Type}

/-- A turn becomes due. -/
def enqueue (s : Session σ κ ν τ α φ δ) (t : Task) : Session σ κ ν τ α φ δ :=
  { s with queue := s.queue ++ [t] }

/-- Turns become due one after the other. -/
def enqueueAll (s : Session σ κ ν τ α φ δ) (ts : List Task) : Session σ κ ν τ α φ δ :=
  { s with queue := s.queue ++ ts }

/-- A caller gets somewhere. -/
def setCaller (s : Session σ κ ν τ α φ δ) (c : Nat) (x : Caller κ ν τ α φ δ) :
    Session σ κ ν τ α φ δ :=
  { s with callers := s.callers.set c x }

/-- A load gets somewhere. -/
def setProgress (s : Session σ κ ν τ α φ δ) (l : Nat) (p : Progress κ ν τ α) :
    Session σ κ ν τ α φ δ :=
  { s with flights := s.flights.modify l fun f => { f with progress := p } }

/-- A load is started; its first turn becomes due. -/
def startFlight (s : Session σ κ ν τ α φ δ) (l : Nat) (job : δ) : Session σ κ ν τ α φ δ :=
  { s with flights := s.flights ++ [Flight.mk job .fresh []] }.enqueue (.load l)

/-- A caller waits for a load. -/
def join (s : Session σ κ ν τ α φ δ) (l c : Nat) (phase : φ) : Session σ κ ν τ α φ δ :=
  { s with
    flights := s.flights.modify l fun f => { f with waiters := f.waiters ++ [c] }
    callers := s.callers.set c (.waiting l phase) }

/-! ## From outside -/

/-- A caller comes in. It is known by its number. -/
def spawn (s : Session σ κ ν τ α φ δ) (phase : φ) : Nat × Session σ κ ν τ α φ δ :=
  let c := s.callers.length
  (c, { s with callers := s.callers ++ [Caller.fresh phase] }.enqueue (.caller c))

/-- Cancels a caller, unless it has finished. The load that it waits for goes on. -/
def cancel (s : Session σ κ ν τ α φ δ) (c : Nat) : Bool × Session σ κ ν τ α φ δ :=
  match s.callers[c]? with
  | some (.waiting _ _) | some (.held _ _) =>
    (true, (s.setCaller c .cancelled).enqueue (.caller c))
  | some (.fresh _) | some (.answered _ _) | some (.freed _ _ _) =>
    (true, s.setCaller c .cancelled)
  | some .cancelled => (true, s)
  | some (.finished _) | none => (false, s)

/-- One of those who waited at a gate gets the answer. -/
def free (a : Answer κ ν τ α) (s : Session σ κ ν τ α φ δ) (t : Task) : Session σ κ ν τ α φ δ :=
  match t with
  | .caller c =>
    match s.callers[c]? with
    | some (.held job phase) => (s.setCaller c (.freed a job phase)).enqueue t
    | _ => s
  | .load l =>
    match (s.flights[l]?).map Flight.progress with
    | some .held => (s.setProgress l (.freed a)).enqueue t
    | _ => s
  | .deliver _ _ => s

/-- A turn will be taken again when a gate opens. -/
def await (s : Session σ κ ν τ α φ δ) (name : String) (t : Task) : Session σ κ ν τ α φ δ :=
  let waiting := (s.gates.lookup name).getD []
  { s with gates := (name, waiting ++ [t]) :: s.gates.filter fun p => p.1 ≠ name }

/-- Opens a gate with an answer for all who wait there, and closes it behind them. Tells whether
anyone waited there. -/
def release (s : Session σ κ ν τ α φ δ) (name : String) (a : Answer κ ν τ α) :
    Bool × Session σ κ ν τ α φ δ :=
  match s.gates.lookup name with
  | none => (false, s)
  | some waiting =>
    (true, waiting.foldl (free a) { s with gates := s.gates.filter fun p => p.1 ≠ name })

/-! ## Turns -/

/-- The outcome of a load as those who wait for it see it: of a cancelled load they learn no more
than that it was cancelled. -/
def forWaiter (r : Outcome ν) : Outcome ν :=
  match r with
  | .error f => if f.isA .cancelled then .error .cancellation else .error f
  | .ok v => .ok v

section Turns

variable [Add τ] [LE τ] [DecidableLE τ] [DecidableEq κ] [Keylike κ]

/-- Lets an answer happen: its time passes, and the cache is changed. -/
def play (a : Answer κ ν τ α) (st : Stage σ κ ν τ) : Stage σ κ ν τ :=
  let later :=
    match a.took with
    | some s => st.advance s
    | none => st
  a.edits.foldl Stage.apply later

variable (C : Client σ κ ν τ α φ δ)

/-- A load has its answer: it ends, and hands its outcome to all who wait for it. -/
def land (s : Session σ κ ν τ α φ δ) (l : Nat) (f : Flight κ ν τ α δ) (a : Answer κ ν τ α) :
    Session σ κ ν τ α φ δ :=
  let (r, stage) := C.conclude f.job a.outcome (play a s.stage)
  let ended :=
    match stage.cache.loads.find? fun m => m.id == l with
    | some load => stage.finish load r
    | none => stage
  ({ s with stage := ended }.setProgress l (.landed r)).enqueueAll (f.waiters.map (.deliver l))

/-- A caller has the answer to its own job: it finishes. -/
def settle (s : Session σ κ ν τ α φ δ) (c : Nat) (job : δ) (phase : φ) (a : Answer κ ν τ α) :
    Session σ κ ν τ α φ δ :=
  let (r, concluded) := C.conclude job a.outcome (play a s.stage)
  let (r, stage) := C.settle phase r concluded
  { s with stage }.setCaller c (.finished r)

/-- Asks outside for what a job needs. -/
def ask (s : Session σ κ ν τ α φ δ) (job : δ) : Response κ ν τ α × Session σ κ ν τ α φ δ :=
  let (r, stage) := C.call job s.stage
  (r, { s with stage, calls := s.calls ++ [job] })

/-- What a caller decided at the end of its turn takes place. -/
def follow (s : Session σ κ ν τ α φ δ) (c : Nat) : Turn ν φ δ → Session σ κ ν τ α φ δ
  | .done r => s.setCaller c (.finished r)
  | .wait l none phase => s.join l c phase
  | .wait l (some job) phase => (s.startFlight l job).join l c phase
  | .errand job phase =>
    match s.ask C job with
    | (.now a, s) => s.settle C c job phase a
    | (.gate name, s) => (s.await name (.caller c)).setCaller c (.held job phase)

/-- The turn of a caller. -/
def turnCaller (s : Session σ κ ν τ α φ δ) (c : Nat) : Session σ κ ν τ α φ δ :=
  match s.callers[c]? with
  | some (.fresh phase) =>
    let (next, stage) := C.start phase s.stage
    { s with stage }.follow C c next
  | some (.answered r phase) =>
    let (next, stage) := C.resume phase r s.stage
    { s with stage }.follow C c next
  | some (.freed a job phase) => s.settle C c job phase a
  | some .cancelled => s.setCaller c (.finished (.error .cancellation))
  | _ => s

/-- The turn of a load. -/
def turnLoad (s : Session σ κ ν τ α φ δ) (l : Nat) : Session σ κ ν τ α φ δ :=
  match s.flights[l]? with
  | none => s
  | some f =>
    match f.progress with
    | .fresh =>
      match s.ask C f.job with
      | (.now a, s) => s.land C l f a
      | (.gate name, s) => (s.await name (.load l)).setProgress l .held
    | .freed a => s.land C l f a
    | .held | .landed _ => s

/-- A load hands its outcome to a caller that still waits for it. -/
def deliver (s : Session σ κ ν τ α φ δ) (l c : Nat) : Session σ κ ν τ α φ δ :=
  match (s.flights[l]?).map Flight.progress, s.callers[c]? with
  | some (.landed r), some (.waiting m phase) =>
    if m = l then (s.setCaller c (.answered (forWaiter r) phase)).enqueue (.caller c) else s
  | _, _ => s

/-- One turn. -/
def turn (s : Session σ κ ν τ α φ δ) : Task → Session σ κ ν τ α φ δ
  | .caller c => s.turnCaller C c
  | .load l => s.turnLoad C l
  | .deliver l c => s.deliver l c

/-- All turns that are due. Those that become due meanwhile are left for the next pass. -/
def pass (s : Session σ κ ν τ α φ δ) : Session σ κ ν τ α φ δ :=
  s.queue.foldl (turn C) { s with queue := [] }

/-- So many passes, or as many as it takes until no turn is due. -/
def run : Nat → Session σ κ ν τ α φ δ → Session σ κ ν τ α φ δ
  | 0, s => s
  | passes + 1, s => if s.queue.isEmpty then s else run passes (s.pass C)

end Turns

end Session

end NodeKeeper
