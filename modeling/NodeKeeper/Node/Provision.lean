import NodeKeeper.Node.Login
import NodeKeeper.Node.World

/-!
# Provisioning

A node is created, and the flow waits until it is ready and can be logged in to. A node that does
not get ready in time is taken back.

## Main definitions

* `Provisioner` — what a provider says about ready nodes, and how long to wait for one.
* `Provisioner.provision` — the flow.
* `Provisioned` — a node that can be used.
-/

namespace NodeKeeper

/-- What a provider says about ready nodes, and how long to wait for one. -/
structure Provisioner where
  isReady : Value → Except Fault Bool
  login? : Value → Except Fault (Option Login)
  timeout : Float
  period : Float := 1.0
  transient : List Fault.Kind := []

/-- A node that can be used. -/
structure Provisioned where
  handle : Handle
  login : Login
  elapsed : Float
  stage : ProvisionStage := .ready

namespace Provisioner

/-- The time to wait has to be more than half a second. -/
def check (p : Provisioner) : Except Fault Provisioner :=
  if p.timeout ≤ 0.5 then
    .error (.badValue ("login details timeout must be in seconds and greater than 0.5, " ++
      s!"got {Decimal.text p.timeout}"))
  else .ok p

variable {σ : Type}

/-- Creates the node. Faults of lifecycle flows and cancellation stay what they are, all others
become a failed creation. -/
def create (env : Surroundings σ) (req : ProvisionRequest) (bound : List (String × Value)) :
    Flow (World σ) Handle := do
  match ← (World.perform env (.create req)).attempt with
  | .ok handle => return handle
  | .error f =>
    if f.isLifecycle || !f.isOrdinary then Flow.raise f
    else
      World.note .error "provision.create_failed" (bound ++ [("error", .text f.message)])
      let text := s!"Failed to create {req.instanceName} in group {req.group}: {f.message}"
      Flow.raise (.causedBy (.lifecycle .createFailed text {}) f)

/-- One check whether the node is ready. Whatever is read counts as the last state. -/
def readyCheck (p : Provisioner) (env : Surroundings σ) (id : String) : Flow (World σ) Bool := do
  let state ← World.perform env (.get id)
  World.see state
  if state.isNull then return false else Flow.ofExcept (p.isReady state)

/-- Takes back a node that did not get ready. The result is why that failed, if it did. -/
def takeBack (env : Surroundings σ) (id : String) (bound : List (String × Value)) :
    Flow (World σ) (Option Fault) := do
  World.note .debug "provision.destroying"
    (bound ++ [("state", .text ProvisionStage.destroying.word)])
  match ← (World.perform env (.delete id)).attempt with
  | .ok accepted =>
    if accepted.isTruthy then
      World.note .info "provision.destroyed"
        (bound ++ [("state", .text ProvisionStage.failed.word)])
      return none
    else
      World.note .warning "provision.destroy_rejected" bound
      return some (.plain .runtime (some s!"delete of {id} was not accepted"))
  | .error f =>
    if f.isOrdinary then
      World.note .warning "provision.destroy_failed" (bound ++ [("error", .text f.message)])
      return some f
    else Flow.raise f

/-- The node reported itself ready; its login credentials are taken from one more read. -/
def finalLogin (p : Provisioner) (env : Surroundings σ) (id : String) (elapsed : Float) :
    Flow (World σ) Login := do
  let inconsistent := fun (text : String) (state : Value) =>
    Fault.lifecycle .inconsistentState text
      { resource := .text id, elapsed := some elapsed, timeout := some p.timeout,
        lastState := state }
  let state ← World.perform env (.get id)
  if state.isNull then
    Flow.raise (inconsistent "Resource reported ready but is gone on the final read"
      (← World.lastSeen))
  else
    World.see state
    match p.login? state with
    | .ok (some login) => return login
    | .ok none =>
      Flow.raise (inconsistent "Resource reported ready but carries no login credentials" state)
    | .error f =>
      if f.isOrdinary then
        let text := "Resource reported ready but its credentials could not be read: " ++ f.message
        Flow.raise (.causedBy (inconsistent text state) f)
      else Flow.raise f

/-- How to wait for a node. -/
def settings (p : Provisioner) (id : String) : Poll.Settings Float :=
  ⟨p.period, p.timeout, p.transient, s!"provision:{id}"⟩

/-- The wait for the node. A cancelled wait leaves the node in place and says so in the log. -/
def awaitReady (p : Provisioner) (env : Surroundings σ) (horizon : Nat) (id : String)
    (bound : List (String × Value)) : Flow (World σ) (Poll.Outcome Float) := do
  match ← (World.poll env (p.settings id) (p.readyCheck env id) horizon).attempt with
  | .ok outcome => return outcome
  | .error f =>
    if f.isA .cancelled then
      World.note .warning "provision.cancelled" (bound ++ [("last_state", ← World.lastSeen)])
    Flow.raise f

/-- What the log says about a node: its group, its name, and its identifier. -/
def boundOf (req : ProvisionRequest) (id : String) : List (String × Value) :=
  [("group", .text req.group), ("name", .text req.instanceName), ("resource_id", .text id)]

/-- Creates a node that is to be waited for. Its status counts as the last state. -/
def launch (p : Provisioner) (env : Surroundings σ) (req : ProvisionRequest) :
    Flow (World σ) Handle := do
  let named := [("group", Value.text req.group), ("name", .text req.instanceName)]
  World.note .debug "provision.creating"
    (named ++ [("state", .text ProvisionStage.creating.word)])
  let handle ← create env req named
  World.see handle.status
  let bound := boundOf req handle.id
  World.note .info "provision.created" bound
  World.note .debug "provision.awaiting_login_details"
    (bound ++ [("state", .text ProvisionStage.waitingReady.word), ("timeout", .float p.timeout)])
  return handle

/-- A node that got ready can be used once its login credentials are known. -/
def handOver (p : Provisioner) (env : Surroundings σ) (id : String) (outcome : Poll.Outcome Float)
    (bound : List (String × Value)) : Flow (World σ) Provisioned := do
  let login ← p.finalLogin env id outcome.elapsed
  World.note .info "provision.ready"
    (bound ++ [("state", .text ProvisionStage.ready.word), ("elapsed", .float outcome.elapsed),
      ("attempts", .int outcome.attempts), ("user", login.user)])
  return ⟨⟨id, ← World.lastSeen⟩, login, outcome.elapsed, .ready⟩

/-- A node that did not get ready in time is taken back, and the fault says whether that worked. -/
def giveUp (p : Provisioner) (env : Surroundings σ) (id : String) (outcome : Poll.Outcome Float)
    (bound : List (String × Value)) : Flow (World σ) Provisioned := do
  World.note .warning "provision.timed_out"
    (bound ++ [("state", .text ProvisionStage.timedOut.word),
      ("elapsed", .float outcome.elapsed), ("timeout", .float p.timeout)])
  let cleanup ← takeBack env id bound
  let text := "Resource is being destroyed as it had no login details after " ++
    s!"{Decimal.fixed 1 p.timeout}s; consider increasing the login details timeout"
  let context : Fault.Context :=
    { resource := .text id, elapsed := some outcome.elapsed, timeout := some p.timeout,
      lastState := ← World.lastSeen }
  match cleanup with
  | none => Flow.raise (.lifecycle .readinessTimeout text context)
  | some f => Flow.raise (.unclean text context f)

/-- Creates a node and waits until it can be used. -/
def provision (p : Provisioner) (env : Surroundings σ) (horizon : Nat) (req : ProvisionRequest) :
    Flow (World σ) Provisioned := do
  let handle ← p.launch env req
  let bound := boundOf req handle.id
  let outcome ← p.awaitReady env horizon handle.id bound
  if outcome.ready then p.handOver env handle.id outcome bound
  else p.giveUp env handle.id outcome bound

end Provisioner

end NodeKeeper
