import NodeKeeper.Node.World

/-!
# Teardown

A node is deleted once its pending operations have drained, and then the secondary resources that
were named after it are removed. A node that is not there is no reason to do anything, and neither
is a secondary resource that cannot be removed a reason to fail.

## Main definitions

* `Dismantler` — what a provider says about nodes to delete, and how long to wait for one.
* `OrphanSource` — how the secondary resources of a node are found and removed.
* `Dismantler.destroy` — the flow.
* `Dismantled` — what became of the node and its secondary resources.
-/

namespace NodeKeeper

/-- How the secondary resources of a node are found by its name, and removed. -/
structure OrphanSource (ω : Type) where
  list : Value → Flow ω (List OrphanRef)
  remove : OrphanRef → Flow ω Unit

/-- Secondary resources that are listed and removed by one call each. -/
def OrphanSource.direct {σ : Type} (env : Surroundings σ) : OrphanSource (World σ) where
  list name := World.perform env (.listOrphans name)
  remove ref := do
    let _ ← World.perform env (.deleteOrphan ref)
    return ()

/-- What a provider says about nodes to delete, and how long to wait for one. -/
structure Dismantler where
  /-- How many operations are pending; the node has drained once this is zero. -/
  pending : Value → Except Fault Value
  /-- The name that the secondary resources are found by. -/
  nameOf : Value → Except Fault Value
  /-- What is read after the delete shows that the node is gone. -/
  isGone : Value → Except Fault Bool := fun state => .ok state.isNull
  timeout : Float
  period : Float := 1.0
  transient : List Fault.Kind := []

/-- What became of a node and its secondary resources. -/
structure Dismantled where
  id : String
  deleted : Bool
  elapsed : Float
  removed : List OrphanRef := []
  failures : List Fault := []
  stage : TeardownStage := .done

namespace Dismantler

variable {σ : Type}

/-- One check whether the node has drained. A node that is gone has; every state that is read
counts as the last one. -/
def drainedCheck (d : Dismantler) (env : Surroundings σ) (id : String) : Flow (World σ) Bool := do
  let state ← World.perform env (.get id)
  if state.isNull then return true
  else
    World.see state
    return (← Flow.ofExcept (d.pending state)).agrees (.int 0)

/-- A fault of the teardown of a node, with the last state. -/
def faultOf (d : Dismantler) (kind : Fault.Kind) (text : String) (id : String) (elapsed : Float)
    (state : Value) : Fault :=
  .lifecycle kind text
    { resource := .text id, elapsed := some elapsed, timeout := some d.timeout,
      lastState := state }

/-- Waits until the node has drained. -/
def drain (d : Dismantler) (env : Surroundings σ) (horizon : Nat) (id : String)
    (bound : List (String × Value)) : Flow (World σ) Unit := do
  World.note .debug "teardown.draining"
    (bound ++ [("state", .text TeardownStage.draining.word), ("timeout", .float d.timeout)])
  let settings : Poll.Settings Float := ⟨d.period, d.timeout, d.transient, s!"drain:{id}"⟩
  let outcome ← World.poll env settings (d.drainedCheck env id) horizon
  if outcome.ready then return ()
  else
    let state ← World.lastSeen
    let count ← Flow.ofExcept (d.pending state)
    World.note .error "teardown.drain_timeout"
      (bound ++ [("elapsed", .float outcome.elapsed), ("timeout", .float d.timeout),
        ("pending", count)])
    Flow.raise (d.faultOf .drainTimeout
      "Pending operations did not finish; resource was not deleted" id outcome.elapsed state)

/-- Deletes the node and makes sure that it is gone. -/
def delete (d : Dismantler) (env : Surroundings σ) (id : String) (started : Float)
    (bound : List (String × Value)) : Flow (World σ) Unit := do
  World.note .debug "teardown.deleting"
    (bound ++ [("state", .text TeardownStage.deleting.word)])
  let failure := fun (kind : Fault.Kind) (text : String) (state : Value) => do
    return d.faultOf kind text id ((← World.clock (σ := σ)) - started) state
  match ← (World.perform env (.delete id)).attempt with
  | .error f =>
    if f.isLifecycle || !f.isOrdinary then Flow.raise f
    else
      World.note .error "teardown.delete_failed" (bound ++ [("error", .text f.message)])
      let fault ← failure .deleteFailed s!"Delete call failed: {f.message}" (← World.lastSeen)
      Flow.raise (.causedBy fault f)
  | .ok accepted =>
    if !accepted.isTruthy then
      World.note .error "teardown.delete_rejected" bound
      Flow.raise (← failure .deleteFailed "Delete reported nothing deleted" (← World.lastSeen))
    else
      let remaining ← World.perform env (.get id)
      if ← Flow.ofExcept (d.isGone remaining) then
        World.note .info "teardown.deleted" bound
      else
        World.note .error "teardown.still_present" (bound ++ [("last_state", remaining)])
        Flow.raise
          (← failure .inconsistentState "Resource still present after delete" remaining)

/-- What became of the secondary resources so far. -/
structure Cleanup where
  removed : List OrphanRef := []
  failures : List Fault := []

/-- Removes one secondary resource and drops its cache entry. A fault is kept and not raised. -/
def removeOrphan (source : OrphanSource (World σ)) (bound : List (String × Value))
    (ref : OrphanRef) (so : Cleanup) : Flow (World σ) Cleanup := do
  match ← (source.remove ref).attempt with
  | .ok _ =>
    if let some key := ref.cacheKey then World.dropCached key
    World.note .debug "teardown.orphan_removed"
      (bound ++ [("kind", .text ref.kind), ("orphan_id", ref.id)])
    return { so with removed := so.removed ++ [ref] }
  | .error f =>
    if f.isOrdinary then
      World.note .warning "teardown.orphan_cleanup_failed"
        (bound ++ [("kind", .text ref.kind), ("orphan_id", ref.id), ("error", .text f.message)])
      return { so with failures := so.failures ++ [.orphan ref f] }
    else Flow.raise f

/-- Removes secondary resources one after the other. -/
def removeOrphans (source : OrphanSource (World σ)) (bound : List (String × Value)) :
    List OrphanRef → Cleanup → Flow (World σ) Cleanup
  | [], so => return so
  | ref :: rest, so => do removeOrphans source bound rest (← removeOrphan source bound ref so)

/-- Finds and removes the secondary resources of a node. If they cannot be listed, that is the one
failure. -/
def cleanOrphans (source : OrphanSource (World σ)) (bound : List (String × Value))
    (name : Value) : Flow (World σ) Cleanup := do
  World.note .debug "teardown.cleaning_orphans"
    (bound ++ [("state", .text TeardownStage.cleaningOrphans.word), ("name", name)])
  match ← (source.list name).attempt with
  | .ok refs => removeOrphans source bound refs {}
  | .error f =>
    if f.isOrdinary then
      World.note .warning "teardown.orphan_listing_failed" (bound ++ [("error", .text f.message)])
      return { failures := [.orphan { kind := "listing", id := name, name } f] }
    else Flow.raise f

/-- Deletes a node once it has drained, and then removes its secondary resources. -/
def destroy (d : Dismantler) (env : Surroundings σ) (source : Option (OrphanSource (World σ)))
    (horizon : Nat) (id : String) : Flow (World σ) Dismantled := do
  let started ← World.clock
  let bound := [("resource_id", Value.text id)]
  let state ← World.perform env (.get id)
  if state.isNull then
    World.note .info "teardown.not_found"
      (bound ++ [("state", .text TeardownStage.notFound.word)])
    return { id, deleted := false, elapsed := (← World.clock) - started }
  else
    let name ← Flow.ofExcept (d.nameOf state)
    World.see state
    d.drain env horizon id bound
    d.delete env id started bound
    let so ←
      match source with
      | some source => cleanOrphans source bound name
      | none => pure {}
    let elapsed := (← World.clock) - started
    World.note .info "teardown.done"
      (bound ++ [("state", .text TeardownStage.done.word), ("elapsed", .float elapsed),
        ("removed", .int so.removed.length), ("failures", .int so.failures.length)])
    return ⟨id, true, elapsed, so.removed, so.failures, .done⟩

end Dismantler

end NodeKeeper
