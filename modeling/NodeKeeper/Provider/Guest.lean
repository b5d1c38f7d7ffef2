import NodeKeeper.Config.Root
import NodeKeeper.Node.Provision
import NodeKeeper.Node.Teardown
import NodeKeeper.Value.Access

/-!
# Virtual guests

One provider reports its nodes as records of addresses, an operating system with passwords, a count
of active transactions and a host name. These functions read what the flows ask for.

## Main definitions

* `Guest.hasLogin` — a guest is ready once it has both addresses and a password.
* `Guest.login?` — the first password, as login credentials.
* `Guest.pending` — how many transactions are active.
* `Guest.name` — the host name.
* `Guest.provisioner`, `Guest.dismantler` — the flows for guests.
-/

namespace NodeKeeper.Guest

/-- The passwords of the operating system; there are none as long as either is absent. -/
def passwords (guest : Value) : Except Fault (List Value) := do
  let system ← guest.get "operatingSystem"
  let listed ← (system.orElse (.record [])).get "passwords"
  (listed.orElse (.list [])).elements

/-- A guest is ready once it has both addresses and a password. -/
def hasLogin (guest : Value) : Except Fault Bool := do
  if (← guest.get "primaryBackendIpAddress").isNull then return false
  if (← guest.get "primaryIpAddress").isNull then return false
  return !(← passwords guest).isEmpty

/-- The login credentials that a guest came with. -/
def login? (guest : Value) : Except Fault (Option Login) := do
  match ← passwords guest with
  | [] => return none
  | first :: _ =>
    let user ← first.index "username"
    let password ← first.index "password"
    return some (← Login.make user password .null)

/-- How many transactions are active; an absent count is zero. -/
def pending (guest : Value) : Except Fault Value := do
  let count ← guest.get "activeTransactionCount"
  return .int (← (count.orElse (.int 0)).toCount)

/-- The host name as running text; a guest without one has the empty name. -/
def name (guest : Value) : Except Fault String :=
  match guest with
  | .record fields => .ok ((fields.lookup "hostname").getD (.text "")).shown
  | v => (v.get "hostname").map Value.shown

/-- Provisioning of guests. -/
def provisioner (s : Config.Settings) (transient : List Fault.Kind) : Except Fault Provisioner := do
  let (timeout, period) ← s.provision.seconds
  Provisioner.check { isReady := hasLogin, login?, timeout, period, transient }

/-- Teardown of guests. -/
def dismantler (s : Config.Settings) (transient : List Fault.Kind) : Except Fault Dismantler := do
  let (timeout, period) ← s.teardown.seconds
  return { pending, nameOf := fun guest => (name guest).map .text, timeout, period, transient }

end NodeKeeper.Guest
