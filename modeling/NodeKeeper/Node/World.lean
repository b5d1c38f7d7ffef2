import NodeKeeper.Cache.Basic
import NodeKeeper.Node.Stage
import NodeKeeper.Poll

/-!
# The world of a flow

Everything that a flow for nodes and images touches: the clock, the calls to its surroundings, the
pauses, the log, a cache of secondary resources, and the state that it observed last.

## Main definitions

* `Call`, `Call.Answer` — a call to the surroundings and the type of its answer.
* `Call.document` — a call as a document.
* `Surroundings` — what answers the calls, with a state of its own.
* `Happening` — what a flow goes through: a call or a pause.
* `World` — the world of a flow.
* `World.perform`, `World.note`, `World.dropCached` — what a flow does in it.
* `World.instruments` — a world as the instruments of a bounded wait.

## Implementation notes

The surroundings are any state machine: it answers a call, says how long the answer took, and goes
into a new state. A flow that is cancelled while it waits for an answer or pauses sees a fault of
the kind `cancelled`. Theorems quantify over all such machines and so over all scripts of outcomes.
-/

namespace NodeKeeper

/-- What to create, and under which names. -/
structure ProvisionRequest where
  desired : Value
  group : String
  instanceName : String

/-- A created resource: its identifier, and the status that was observed last. -/
structure Handle where
  id : String
  status : Value := .null

/-- A call to the surroundings. -/
inductive Call where
  | create (request : ProvisionRequest)
  | get (id : String)
  | delete (id : String)
  | createImage (source name : String)
  | getImage (id : String)
  | deleteImage (id : String)
  | listOrphans (name : Value)
  | deleteOrphan (ref : OrphanRef)
  | listPolicies
  | listKeyPairs
  | groupInUse (group : String)
  | deletePolicy (id : Value)
  | deleteRule (id : Value)
  | deleteKeyPair (id : Value)

/-- The type of the answer to a call. -/
@[reducible] def Call.Answer : Call → Type
  | create _ | createImage _ _ => Handle
  | listOrphans _ => List OrphanRef
  | _ => Value

/-- A call as a document: what is called, and the arguments. -/
def Call.document : Call → Value
  | create r => .list [.text "create", .text r.group, .text r.instanceName, r.desired]
  | get id => .list [.text "get", .text id]
  | delete id => .list [.text "delete", .text id]
  | createImage source name => .list [.text "create_image", .text source, .text name]
  | getImage id => .list [.text "get_image", .text id]
  | deleteImage id => .list [.text "delete_image", .text id]
  | listOrphans name => .list [.text "list_orphans", name]
  | deleteOrphan ref => .list [.text "delete_orphan", ref.id]
  | listPolicies => .list [.text "list_policies"]
  | listKeyPairs => .list [.text "list_key_pairs"]
  | groupInUse group => .list [.text "group_in_use", .text group]
  | deletePolicy id => .list [.text "delete_policy", id]
  | deleteRule id => .list [.text "delete_rule", id]
  | deleteKeyPair id => .list [.text "delete_key_pair", id]

/-- The answer to a call, and how long it took. -/
structure Reply (α : Type) where
  took : Option Float := none
  outcome : Except Fault α

/-- What answers the calls of a flow, with states in `σ`. -/
structure Surroundings (σ : Type) where
  answer : (c : Call) → σ → Reply c.Answer × σ
  /-- Whether a pause is cut short by a fault. -/
  pause : Float → σ → Option Fault × σ

/-- What can be looked up about secondary resources. -/
abbrev ResourceCache := Cache CacheKey Value Float

/-- What a flow goes through: a call and its outcome, or a pause and the fault that cut it short, if
there was one. -/
inductive Happening where
  | called (c : Call) (outcome : Except Fault c.Answer)
  | paused (s : Float) (cut : Option Fault)

namespace Happening

/-- The call that was made. -/
def call? : Happening → Option Call
  | called c _ => some c
  | paused _ _ => none

/-- The pause that was made. -/
def pause? : Happening → Option Float
  | called _ _ => none
  | paused s _ => some s

end Happening

/-- The world of a flow. -/
structure World (σ : Type) where
  now : Float := 0.0
  backend : σ
  /-- What the flow went through, in that order. -/
  history : List Happening := []
  log : List Log.Event := []
  cache : Option ResourceCache := none
  /-- The state that the flow observed last. -/
  seen : Value := .null

namespace World

variable {σ : Type}

/-- The calls that were made, in that order. -/
def calls (w : World σ) : List Call := w.history.filterMap Happening.call?

/-- The pauses that were made, in that order. -/
def pauses (w : World σ) : List Float := w.history.filterMap Happening.pause?

/-- Lets time pass. -/
def advance (w : World σ) (took : Option Float) : World σ :=
  match took with
  | some s => { w with now := w.now + s }
  | none => w

/-- Calls the surroundings. The call counts even if it fails, and so does the time it took. -/
def perform (env : Surroundings σ) (c : Call) : Flow (World σ) c.Answer := fun w =>
  let (reply, backend) := env.answer c w.backend
  let history := w.history ++ [.called c reply.outcome]
  let w := { w with history, backend }.advance reply.took
  match reply.outcome with
  | .ok a => (.returned a, w)
  | .error f => (.raised f, w)

/-- Pauses. The clock moves by the pause unless it is cut short. -/
def pause (env : Surroundings σ) (s : Float) : Flow (World σ) Unit := fun w =>
  let (cut, backend) := env.pause s w.backend
  let w := { w with history := w.history ++ [.paused s cut], backend }
  match cut with
  | none => (.returned (), { w with now := w.now + s })
  | some f => (.raised f, w)

/-- Adds an event to the log. -/
def record (e : Log.Event) (w : World σ) : World σ := { w with log := w.log ++ [e] }

/-- Adds an event to the log. -/
def note (level : Log.Level) (name : String) (fields : List (String × Value)) :
    Flow (World σ) Unit :=
  Flow.change (record ⟨level, name, fields⟩)

/-- The reading of the clock. -/
def clock : Flow (World σ) Float := fun w => (.returned w.now, w)

/-- The state that the flow observed last. -/
def lastSeen : Flow (World σ) Value := fun w => (.returned w.seen, w)

/-- Keeps a state as the one that was observed last. -/
def see (state : Value) : Flow (World σ) Unit := Flow.change fun w => { w with seen := state }

/-- Drops a key of the cache, if there is a cache. -/
def dropCached (key : CacheKey) : Flow (World σ) Unit := Flow.change fun w =>
  match w.cache with
  | none => w
  | some c =>
    let (present, rest) := c.invalidate key
    let w := { w with cache := some rest }
    if present then w.record (c.invalidatedEvent key) else w

/-- A world as the instruments of a bounded wait. -/
def instruments (env : Surroundings σ) (label : String) : Poll.Instruments Float (World σ) where
  now := World.now
  pause := pause env
  note n := record (n.event label)
  written := Decimal.text

/-- A bounded wait in a world. -/
def poll (env : Surroundings σ) (s : Poll.Settings Float) (check : Flow (World σ) Bool)
    (horizon : Nat) : Flow (World σ) (Poll.Outcome Float) :=
  Poll.poll (instruments env s.label) s check horizon

end World

end NodeKeeper
