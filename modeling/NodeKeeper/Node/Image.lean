import NodeKeeper.Node.World

/-!
# Images

A node is cloned into an image, and the flow waits until the image can be used. An image that does
not get available in time is taken back.

## Main definitions

* `Imager` — what a provider says about available images, and how long to wait for one.
* `Imager.create`, `Imager.delete` — the flows.
* `Imaged` — an image that can be used.
-/

namespace NodeKeeper

/-- What a provider says about available images, and how long to wait for one. -/
structure Imager where
  isAvailable : Value → Except Fault Bool
  timeout : Float
  period : Float := 1.0
  transient : List Fault.Kind := []

/-- An image that can be used. -/
structure Imaged where
  handle : Handle
  elapsed : Float
  stage : ProvisionStage := .ready

namespace Imager

variable {σ : Type}

/-- Clones a node. Faults of lifecycle flows and cancellation stay what they are, all others become
a failed creation. -/
def clone (env : Surroundings σ) (source name : String) (bound : List (String × Value)) :
    Flow (World σ) Handle := do
  match ← (World.perform env (.createImage source name)).attempt with
  | .ok handle => return handle
  | .error f =>
    if f.isLifecycle || !f.isOrdinary then Flow.raise f
    else
      World.note .error "image.create_failed" (bound ++ [("error", .text f.message)])
      let text := s!"Failed to clone {source} into image {name}: {f.message}"
      Flow.raise (.causedBy (.lifecycle .createFailed text { resource := .text source }) f)

/-- One check whether the image is available. Whatever is read counts as the last state. -/
def availableCheck (p : Imager) (env : Surroundings σ) (id : String) : Flow (World σ) Bool := do
  let state ← World.perform env (.getImage id)
  World.see state
  if state.isNull then return false else Flow.ofExcept (p.isAvailable state)

/-- Takes back an image that did not get available. The result is why that failed, if it did. -/
def discard (env : Surroundings σ) (id : String) (bound : List (String × Value)) :
    Flow (World σ) (Option Fault) := do
  match ← (World.perform env (.deleteImage id)).attempt with
  | .ok _ =>
    World.note .info "image.rolled_back" bound
    return none
  | .error f =>
    if f.isOrdinary then
      World.note .warning "image.rollback_failed" (bound ++ [("error", .text f.message)])
      return some f
    else Flow.raise f

/-- Clones a node into an image and waits until the image can be used. An image that does not get
available in time is taken back, and the fault says whether that worked. -/
def create (p : Imager) (env : Surroundings σ) (horizon : Nat) (source name : String) :
    Flow (World σ) Imaged := do
  let named := [("source_id", Value.text source), ("image_name", .text name)]
  let handle ← clone env source name named
  World.see handle.status
  let bound := named ++ [("image_id", .text handle.id)]
  World.note .info "image.created" bound
  let settings : Poll.Settings Float := ⟨p.period, p.timeout, p.transient, s!"image:{handle.id}"⟩
  let outcome ← World.poll env settings (p.availableCheck env handle.id) horizon
  if outcome.ready then
    World.note .info "image.available"
      (bound ++ [("elapsed", .float outcome.elapsed), ("attempts", .int outcome.attempts)])
    return ⟨⟨handle.id, ← World.lastSeen⟩, outcome.elapsed, .ready⟩
  else
    World.note .warning "image.timed_out"
      (bound ++ [("elapsed", .float outcome.elapsed), ("timeout", .float p.timeout)])
    let cleanup ← discard env handle.id bound
    let text := s!"Image {name} did not become available"
    let context : Fault.Context :=
      { resource := .text handle.id, elapsed := some outcome.elapsed, timeout := some p.timeout,
        lastState := ← World.lastSeen }
    match cleanup with
    | none => Flow.raise (.lifecycle .readinessTimeout text context)
    | some f => Flow.raise (.unclean text context f)

/-- Deletes an image. Tells whether one more read does not find it any more. -/
def delete (env : Surroundings σ) (id : String) : Flow (World σ) Bool := do
  let bound := [("image_id", Value.text id)]
  match ← (World.perform env (.deleteImage id)).attempt with
  | .error f =>
    if f.isLifecycle || !f.isOrdinary then Flow.raise f
    else
      World.note .error "image.delete_failed" (bound ++ [("error", .text f.message)])
      let text := s!"Delete of image failed: {f.message}"
      Flow.raise (.causedBy (.lifecycle .deleteFailed text { resource := .text id }) f)
  | .ok _ =>
    let gone := (← World.perform env (.getImage id)).isNull
    if gone then World.note .info "image.deleted" bound
    else World.note .warning "image.still_present" bound
    return gone

end Imager

end NodeKeeper
