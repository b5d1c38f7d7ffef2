import NodeKeeper.Node.World

/-!
# Simulated guests

A provider without any hardware. Its guests get their addresses and their password at the third look
and finish their transactions at the sixth, so that the flows have something to wait for.

## Main definitions

* `Simulated.Guests` — the guests that there are.
* `Simulated.surroundings` — the guests as what answers the calls of a flow.
-/

namespace NodeKeeper.Simulated

/-- A guest, and how often it was looked at. -/
structure Record where
  id : String
  fields : List (String × Value)
  looks : Nat := 0

/-- The guests that there are, and the number of the next one. -/
structure Guests where
  nextId : Nat := 1000
  present : List Record := []

namespace Record

/-- A new guest has one active transaction and no addresses. -/
def new (id hostname : String) : Record :=
  ⟨id, [("id", .text id), ("hostname", .text hostname), ("activeTransactionCount", .int 1)], 0⟩

/-- What a guest needs for a login. -/
def loginDetails : List (String × Value) := [
  ("primaryBackendIpAddress", .text "10.0.0.5"), ("primaryIpAddress", .text "169.45.1.5"),
  ("operatingSystem", .record [("passwords", .list [
    .record [("username", .text "root"), ("password", .text "demo")]])])]

/-- Looks at a guest once more. -/
def look (r : Record) : Record :=
  let looks := r.looks + 1
  let known :=
    if looks = 3 then loginDetails.foldl (fun fs f => Value.setField f.1 f.2 fs) r.fields
    else r.fields
  let settled :=
    if looks = 6 then Value.setField "activeTransactionCount" (.int 0) known else known
  { r with fields := settled, looks }

end Record

namespace Guests

/-- Adds a guest. -/
def create (g : Guests) (req : ProvisionRequest) : Handle × Guests :=
  let id := toString g.nextId
  (⟨id, .null⟩, ⟨g.nextId + 1, g.present ++ [Record.new id req.instanceName]⟩)

/-- Looks at a guest; one that is not there is null. -/
def look (g : Guests) (id : String) : Value × Guests :=
  match g.present.find? fun r => r.id == id with
  | none => (.null, g)
  | some r =>
    let seen := r.look
    (.record seen.fields,
      { g with present := g.present.map fun r => if r.id = id then seen else r })

/-- Removes a guest, and tells whether it was there. -/
def delete (g : Guests) (id : String) : Bool × Guests :=
  (g.present.any fun r => r.id == id, { g with present := g.present.filter fun r => r.id ≠ id })

end Guests

/-- A call that has nothing to do with guests. -/
def unknownCall : Fault := .plain .runtime (some "simulated guests answer only calls about guests")

/-- The guests as what answers the calls of a flow. No answer takes any time. -/
def surroundings : Surroundings Guests where
  answer
    | .create req, g => let (handle, g) := g.create req; (⟨none, .ok handle⟩, g)
    | .get id, g => let (state, g) := g.look id; (⟨none, .ok state⟩, g)
    | .delete id, g => let (found, g) := g.delete id; (⟨none, .ok (.bool found)⟩, g)
    | .createImage _ _, g | .getImage _, g | .deleteImage _, g | .listOrphans _, g
    | .deleteOrphan _, g | .listPolicies, g | .listKeyPairs, g | .groupInUse _, g
    | .deletePolicy _, g | .deleteRule _, g | .deleteKeyPair _, g => (⟨none, .error unknownCall⟩, g)
  pause _ g := (none, g)

end NodeKeeper.Simulated
