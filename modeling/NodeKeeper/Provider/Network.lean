import NodeKeeper.Naming
import NodeKeeper.Node.Teardown
import NodeKeeper.Provider.Region
import NodeKeeper.Value.Access

/-!
# Firewalls and key pairs of a node

One provider leaves behind a firewall policy with its rules, named after the node, and the key pairs
of the node's group. The key pairs go only with the last node of the group.

## Main definitions

* `Network` — the region, the naming convention, and whether it can be asked who uses a group.
* `Network.list` — the secondary resources of a node, each policy in front of its rules.
* `Network.remove` — removing one of them.
-/

namespace NodeKeeper

/-- Where the secondary resources are and how they are named. -/
structure Network where
  region : String
  naming : Naming := {}
  /-- Whether it can be asked if a group is in use. -/
  asksUse : Bool := false

namespace Network

/-- The kind of a firewall policy. -/
def policyKind : String := "firewall_policy"

/-- The kind of a firewall rule. -/
def ruleKind : String := "firewall_rule"

/-- The kind of a key pair. -/
def keyPairKind : String := "key_pair"

variable {σ : Type}

/-- The policy and its rules, if the policy is the one of that name and not shared. -/
def policyRefs (policyName : String) (policy : Value) : Except Fault (List OrphanRef) := do
  if (← policy.get "shared").isTruthy then return []
  if !(← policy.get "name").agrees (.text policyName) then return []
  let id ← policy.index "id"
  let rules ← ((← policy.get "firewall_rules").orElse (.list [])).elements
  return { kind := policyKind, id, name := .text policyName } ::
    rules.map fun rule => { kind := ruleKind, id := rule }

/-- The policies and rules of all listed policies. -/
def allPolicyRefs (policyName : String) : List Value → Except Fault (List OrphanRef)
  | [] => .ok []
  | policy :: rest => do
    let refs ← policyRefs policyName policy
    return refs ++ (← allPolicyRefs policyName rest)

/-- A name is looked at as a text. -/
def nameText : Value → Except Fault String
  | .text s => .ok s
  | v => .error (.badType s!"expected string or bytes-like object, got '{v.typeWord}'")

/-- The reference to a listed key pair, if it belongs to the group. -/
def keyPairRef? (n : Network) (group : String) (pair : Value) :
    Except Fault (Option OrphanRef) := do
  let name ← nameText (← (match pair with
    | .record fields => .ok ((fields.lookup "name").getD (.text ""))
    | v => v.get "name"))
  if n.naming.belongsTo group name then
    return some
      { kind := keyPairKind, id := .text name, name := .text name,
        cacheKey := some (.place ⟨n.region, n.naming.sharedName group⟩) }
  else return none

/-- The references to all listed key pairs that belong to the group. -/
def keyPairRefs (n : Network) (group : String) : List Value → Except Fault (List OrphanRef)
  | [] => .ok []
  | pair :: rest => do
    let ref ← n.keyPairRef? group pair
    return ref.toList ++ (← n.keyPairRefs group rest)

/-- The group is in use, if that can be asked. -/
def inUse (n : Network) (env : Surroundings σ) (group : String) : Flow (World σ) Bool :=
  if n.asksUse then do return (← World.perform env (.groupInUse group)).isTruthy
  else pure false

/-- The secondary resources of the node with a name: its policy and rules, and then the key pairs
of its group, unless the group is still in use. -/
def list (n : Network) (env : Surroundings σ) (name : Value) :
    Flow (World σ) (List OrphanRef) := do
  let policies ← Flow.ofExcept (← World.perform env .listPolicies).elements
  let policyName := Naming.policyName n.naming.lead name.shown
  let firewall ← Flow.ofExcept (allPolicyRefs policyName policies)
  match n.naming.groupIn? (← Flow.ofExcept (nameText name)) with
  | none => return firewall
  | some group =>
    if ← n.inUse env group then
      World.note .debug "orphans.group_in_use"
        [("region", .text n.region), ("group", .text group)]
      return firewall
    else
      let pairs ← Flow.ofExcept (← World.perform env .listKeyPairs).elements
      return firewall ++ (← Flow.ofExcept (n.keyPairRefs group pairs))

/-- Removes a secondary resource by its kind. -/
def remove (n : Network) (env : Surroundings σ) (ref : OrphanRef) : Flow (World σ) Unit := do
  let call ←
    if ref.kind = policyKind then pure (Call.deletePolicy ref.id)
    else if ref.kind = ruleKind then pure (Call.deleteRule ref.id)
    else if ref.kind = keyPairKind then pure (Call.deleteKeyPair ref.id)
    else Flow.raise (.badValue s!"Unknown orphan kind: {ref.kind}")
  let _ ← World.perform env call
  World.note .info "orphans.deleted"
    [("region", .text n.region), ("kind", .text ref.kind), ("orphan_id", ref.id)]

/-- The firewalls and key pairs as the secondary resources that a teardown removes. -/
def source (n : Network) (env : Surroundings σ) : OrphanSource (World σ) :=
  ⟨n.list env, n.remove env⟩

end Network

end NodeKeeper
