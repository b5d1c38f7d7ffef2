import NodeKeeper.Node.Login
import NodeKeeper.Value.Access

/-!
# Flat states

The plainest provider reports a state as one flat record that says everything by name: whether the
node is `ready`, its `user` with a `password` or `private_key`, how many operations are `pending`,
its `name` and its `status`.

## Main definitions

* `Flat.isReady`, `Flat.login?` — what provisioning asks.
* `Flat.pending`, `Flat.name`, `Flat.isDeleted` — what teardown asks.
* `Flat.isActive` — what imaging asks.
-/

namespace NodeKeeper.Flat

/-- The node says whether it is ready. -/
def isReady (state : Value) : Except Fault Bool := (state.index "ready").map Value.isTruthy

/-- The login credentials in a state that names a user. A state with a `boom` has none that can be
read. -/
def login? (state : Value) : Except Fault (Option Login) := do
  if ← state.holdsName "boom" then
    throw (.plain .runtime (some (← state.index "boom").shown))
  if ← state.holdsName "user" then
    let user ← state.index "user"
    return some (← Login.make user (← state.get "password") (← state.get "private_key"))
  else return none

/-- How many operations are pending. -/
def pending (state : Value) : Except Fault Value := state.index "pending"

/-- The name of the node. -/
def name (state : Value) : Except Fault Value := state.index "name"

/-- The node is absent or says that it is deleted. -/
def isDeleted (state : Value) : Except Fault Bool :=
  if state.isNull then .ok true
  else (state.get "status").map fun status => status.agrees (.text "DELETED")

/-- The image says that it is active. -/
def isActive (state : Value) : Except Fault Bool :=
  (state.index "status").map fun status => status.agrees (.text "ACTIVE")

end NodeKeeper.Flat
