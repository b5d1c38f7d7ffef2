import NodeKeeper.Node.Teardown

/-!
# Scripted surroundings

Surroundings that answer from a script: for every kind of call, a list of replies that are played in
turn. The last reply of a list repeats.

## Main definitions

* `Script` — the replies, and which pause is cut short.
* `Script.next` — the next reply of a list.
* `Script.surroundings` — the script as what answers the calls of a flow.
-/

namespace NodeKeeper

/-- The replies to the calls of a flow, and which pause is cut short. -/
structure Script where
  states : List (Reply Value) := []
  created : List (Reply Handle) := []
  deleted : List (Reply Value) := []
  policies : Reply Value := ⟨none, .ok (.list [])⟩
  keyPairs : Reply Value := ⟨none, .ok (.list [])⟩
  inUse : Reply Value := ⟨none, .ok .null⟩
  orphans : Reply (List OrphanRef) := ⟨none, .ok []⟩
  /-- What removing a secondary resource by its reference comes to. -/
  removal : Value → Reply Value := fun _ => ⟨none, .ok .null⟩
  /-- What deleting a policy, a rule or a key pair by its identifier comes to. -/
  deletion : Value → Reply Value := fun _ => ⟨none, .ok .null⟩
  /-- How many pauses were made. -/
  pauses : Nat := 0
  /-- The pause that is cut short, counted from one. -/
  cutPause : Option Nat := none

namespace Script

/-- The next of a list of replies, of which the last repeats, and the rest of the list. -/
def next {α : Type} (fallback : α) : List α → α × List α
  | [] => (fallback, [])
  | [a] => (a, [a])
  | a :: rest => (a, rest)

/-- The next state. -/
def nextState (s : Script) : Reply Value × Script :=
  let (r, states) := next ⟨none, .ok .null⟩ s.states
  (r, { s with states })

/-- The next created resource. -/
def nextCreated (s : Script) : Reply Handle × Script :=
  let (r, created) := next ⟨none, .ok { id := "" }⟩ s.created
  (r, { s with created })

/-- The next result of a deletion. -/
def nextDeleted (s : Script) : Reply Value × Script :=
  let (r, deleted) := next ⟨none, .ok .null⟩ s.deleted
  (r, { s with deleted })

/-- The script as what answers the calls of a flow. -/
def surroundings : Surroundings Script where
  answer
    | .create _, s | .createImage _ _, s => s.nextCreated
    | .get _, s | .getImage _, s => s.nextState
    | .delete _, s | .deleteImage _, s => s.nextDeleted
    | .listOrphans _, s => (s.orphans, s)
    | .deleteOrphan ref, s => (s.removal ref.id, s)
    | .listPolicies, s => (s.policies, s)
    | .listKeyPairs, s => (s.keyPairs, s)
    | .groupInUse _, s => (s.inUse, s)
    | .deletePolicy id, s | .deleteRule id, s | .deleteKeyPair id, s => (s.deletion id, s)
  pause _ s :=
    let pauses := s.pauses + 1
    (if s.cutPause = some pauses then some .cancellation else none, { s with pauses })

/-- Secondary resources that are listed and removed as the script says. -/
def orphanSource : OrphanSource (World Script) := .direct surroundings

end Script

end NodeKeeper
