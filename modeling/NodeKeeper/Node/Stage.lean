import NodeKeeper.Fault.Basic

/-!
# Stages of a node's life

The stages that provisioning and teardown go through. They appear in log events under their words.

## Main definitions

* `ProvisionStage`, `TeardownStage` — the stages.
* `Vocabulary` — a type whose members are known by words.
-/

namespace NodeKeeper

/-- A type whose members are known by words. -/
class Vocabulary (α : Type) where
  /-- What the type is called in a message. -/
  title : String
  /-- Its members in order. -/
  members : List α
  /-- The word of a member. -/
  word : α → String

/-- The member whose word a document is. -/
def Vocabulary.ofValue {α : Type} [Vocabulary α] (v : Value) : Except Fault α :=
  match (members (α := α)).find? fun a => v.agrees (.text (word a)) with
  | some a => .ok a
  | none => .error (.badValue s!"{v.written} is not a valid {title α}")

/-- The stages of provisioning. -/
inductive ProvisionStage where
  | requested | creating | waitingReady | ready | timedOut | destroying | failed
deriving DecidableEq, Repr

/-- The stages of teardown. -/
inductive TeardownStage where
  | requested | notFound | draining | deleting | cleaningOrphans | done
deriving DecidableEq, Repr

namespace ProvisionStage

/-- The word of a stage. -/
def word : ProvisionStage → String
  | requested => "requested"
  | creating => "creating"
  | waitingReady => "waiting_ready"
  | ready => "ready"
  | timedOut => "timed_out"
  | destroying => "destroying"
  | failed => "failed"

end ProvisionStage

namespace TeardownStage

/-- The word of a stage. -/
def word : TeardownStage → String
  | requested => "requested"
  | notFound => "not_found"
  | draining => "draining"
  | deleting => "deleting"
  | cleaningOrphans => "cleaning_orphans"
  | done => "done"

end TeardownStage

instance : Vocabulary ProvisionStage where
  title := "ProvisionState"
  members := [.requested, .creating, .waitingReady, .ready, .timedOut, .destroying, .failed]
  word := ProvisionStage.word

instance : Vocabulary TeardownStage where
  title := "TeardownState"
  members := [.requested, .notFound, .draining, .deleting, .cleaningOrphans, .done]
  word := TeardownStage.word

end NodeKeeper
