import NodeKeeper.Node.Provision
import NodeKeeper.Node.Teardown
import NodeKeeper.Proofs.Flow.InStep

/-!
# Nodes that are alike

A provider may be unable to tell two states of a node apart. If the surroundings of two runs differ
in such states only, then provisioning and teardown go in step in them: the same is done, and the
same is logged, but for those places where the log shows a state as a whole.

## Main definitions

* `Provisioner.Respects`, `Dismantler.Respects` — states that are alike are treated in the same way.
* `OrphanSource.InStep` — secondary resources are found and removed in step.

## Main results

* `Provisioner.inStep_provision` — provisioning.
* `Dismantler.inStep_destroy` — teardown.
-/

namespace NodeKeeper

open NodeKeeper.Flow (InStep)

variable {σ σ' : Type} {K : Likeness σ σ'} {env : Surroundings σ} {env' : Surroundings σ'}
  {id : String} {horizon : Nat}

/-- Two faults are of one kind. -/
def Fault.SameKind (f f' : Fault) : Prop := f'.kind = f.kind

/-- A fault is of its own kind. -/
lemma Fault.SameKind.refl (f : Fault) : f.SameKind f := rfl

/-- Faults that are the same are of the same kind. -/
lemma Fault.SameKind.of_eq (f f' : Fault) (h : f = f') : f.SameKind f' := h ▸ rfl

/-! ## Provisioning -/

namespace Provisioner

variable {p : Provisioner}

/-- States that are alike are treated in the same way, and may both be shown when a wait is
cancelled. -/
structure Respects (p : Provisioner) (K : Likeness σ σ') : Prop where
  isNull : ∀ {v v'}, K.state v v' → v'.isNull = v.isNull
  isReady : ∀ {v v'}, K.state v v' → p.isReady v' = p.isReady v
  login : ∀ {v v'}, K.state v v' →
    Outcomes (Option.Rel fun l l' => l'.user = l.user) Eq (p.login? v) (p.login? v')
  cancelled : ∀ fields {v v'}, K.state v v' →
    K.event ⟨.warning, "provision.cancelled", fields ++ [("last_state", v)]⟩
      ⟨.warning, "provision.cancelled", fields ++ [("last_state", v')]⟩

/-- In both worlds a node is launched alike: its identifier is the same, or the launch fails with a
fault of the same kind.

**Proof sketch.** The creation is asked for in both, and comes to handles with the same number, or
to the same fault, which is passed on or wrapped alike. The states may differ, but are only seen,
not looked into. -/
lemma inStep_launch (p : Provisioner) (hK : K.Answers env env') (req : ProvisionRequest) :
    InStep K (fun h h' => h'.id = h.id) Fault.SameKind (p.launch env req) (p.launch env' req) := by
  unfold launch create
  refine InStep.note.bind_eq fun _ => ?_
  refine InStep.bind (V := K.answer (.create req)) ?_ ?_
  · refine (InStep.perform hK (.create req)).attempt.bind fun created created' hcreated => ?_
    cases hcreated with
    | ok h => exact InStep.pure h
    | error h =>
      subst h
      dsimp only
      split
      · exact InStep.raise rfl
      · exact InStep.note.bind_eq fun _ => InStep.raise rfl
  · rintro handle handle' ⟨hid, hstatus⟩
    rw [hid]
    exact (InStep.see hstatus).bind_eq fun _ => InStep.note.bind_eq fun _ =>
      InStep.note.bind_eq fun _ => InStep.pure hid

/-- In both worlds it is checked alike whether the node is ready. -/
lemma inStep_readyCheck (hp : p.Respects K) (hK : K.Answers env env') :
    InStep K Eq Eq (p.readyCheck env id) (p.readyCheck env' id) := by
  unfold readyCheck
  refine (InStep.perform hK (.get id)).bind fun v v' hv => (InStep.see hv).bind_eq fun _ => ?_
  rw [hp.isNull hv, hp.isReady hv]
  split
  · exact InStep.pure rfl
  · exact InStep.ofExcept (fun _ => rfl) _

/-- A wait that is cancelled shows the last state.

**Proof sketch.** The waits end alike. If they are cut short, the last states are related, and so
are the notes that show them. -/
lemma inStep_awaitReady (hp : p.Respects K) (hK : K.Answers env env')
    (bound : List (String × Value)) :
    InStep K Eq Eq (p.awaitReady env horizon id bound) (p.awaitReady env' horizon id bound) := by
  unfold awaitReady
  refine (InStep.poll hK (inStep_readyCheck hp hK) horizon).attempt.bind fun r r' hr => ?_
  cases hr with
  | ok h => exact InStep.pure h
  | error h =>
    subst h
    dsimp only
    split
    · exact InStep.lastSeen.bind fun v v' hv =>
        (InStep.note_of_event (hp.cancelled bound hv)).bind_eq fun _ => InStep.raise rfl
    · exact InStep.raise rfl

/-- In both worlds the login is read alike from the last state: for the same user, whatever the rest
of it is.

**Proof sketch.** The state is read in both, and is null in both or in neither. The logins that are
read from it belong to the same user, or there is none in both; all failures are of the same
kind. -/
lemma inStep_finalLogin (hp : p.Respects K) (hK : K.Answers env env') (elapsed : Float) :
    InStep K (fun l l' => l'.user = l.user) Fault.SameKind (p.finalLogin env id elapsed)
      (p.finalLogin env' id elapsed) := by
  unfold finalLogin
  refine ((InStep.perform hK (.get id)).mono Fault.SameKind.of_eq).bind fun v v' hv => ?_
  rw [hp.isNull hv]
  split
  · exact InStep.lastSeen.bind fun _ _ _ => InStep.raise rfl
  · refine (InStep.see hv).bind_eq fun _ => ?_
    have hlogin := hp.login hv
    generalize p.login? v = r, p.login? v' = r' at hlogin
    cases hlogin with
    | ok h =>
      cases h with
      | some h => exact InStep.pure h
      | none => exact InStep.raise rfl
    | error h =>
      subst h
      dsimp only
      split <;> exact InStep.raise rfl

/-- In both worlds a node that is ready is handed over alike, or fails to be with a fault of the
same kind. -/
lemma inStep_handOver (hp : p.Respects K) (hK : K.Answers env env') (o : Poll.Outcome Float)
    (bound : List (String × Value)) :
    InStep K (fun _ _ => True) Fault.SameKind (p.handOver env id o bound)
      (p.handOver env' id o bound) := by
  unfold handOver
  refine (inStep_finalLogin hp hK o.elapsed).bind fun l l' hl => ?_
  rw [hl]
  exact InStep.note.bind_eq fun _ => InStep.lastSeen.bind fun _ _ _ => InStep.pure trivial

/-- In both worlds a node that did not become ready is taken back alike.

**Proof sketch.** The deletion is asked for in both, and is answered alike; the answer alone decides
what is noted. -/
lemma inStep_takeBack (hK : K.Answers env env') (bound : List (String × Value)) :
    InStep K Eq Eq (takeBack env id bound) (takeBack env' id bound) := by
  unfold takeBack
  refine InStep.note.bind_eq fun _ => ?_
  refine (InStep.perform hK (.delete id)).attempt.bind fun r r' hr => ?_
  cases hr with
  | ok h =>
    obtain rfl := h
    dsimp only
    split <;> exact InStep.note.bind_eq fun _ => InStep.pure rfl
  | error h =>
    subst h
    dsimp only
    split
    · exact InStep.note.bind_eq fun _ => InStep.pure rfl
    · exact InStep.raise rfl

/-- In both worlds it is given up alike: taken back, and reported with a fault of the same kind. -/
lemma inStep_giveUp (p : Provisioner) (hK : K.Answers env env') (o : Poll.Outcome Float)
    (bound : List (String × Value)) :
    InStep K (fun _ _ => True) Fault.SameKind (p.giveUp env id o bound)
      (p.giveUp env' id o bound) := by
  unfold giveUp
  refine InStep.note.bind_eq fun _ => ?_
  refine ((inStep_takeBack hK bound).mono Fault.SameKind.of_eq).bind_eq fun cleanup => ?_
  refine InStep.lastSeen.bind fun v v' _ => ?_
  cases cleanup <;> exact InStep.raise rfl

/-- **Provisioning** goes in step if states that are alike are treated in the same way. -/
theorem inStep_provision (hp : p.Respects K) (hK : K.Answers env env') (horizon : Nat)
    (req : ProvisionRequest) :
    InStep K (fun _ _ => True) Fault.SameKind (p.provision env horizon req)
      (p.provision env' horizon req) := by
  unfold provision
  refine (inStep_launch p hK req).bind fun h h' hid => ?_
  rw [hid]
  refine ((inStep_awaitReady hp hK _).mono Fault.SameKind.of_eq).bind_eq fun o => ?_
  split
  · exact inStep_handOver hp hK o _
  · exact inStep_giveUp p hK o _

end Provisioner

/-! ## Teardown -/

/-- Secondary resources are found and removed in step. -/
structure OrphanSource.InStep (K : Likeness σ σ') (source : OrphanSource (World σ))
    (source' : OrphanSource (World σ')) : Prop where
  list : ∀ name, Flow.InStep K Eq Eq (source.list name) (source'.list name)
  remove : ∀ ref, Flow.InStep K Eq Eq (source.remove ref) (source'.remove ref)

/-- Secondary resources that are listed and removed by one call each. -/
lemma OrphanSource.inStep_direct (hK : K.Answers env env') :
    (OrphanSource.direct env).InStep K (.direct env') where
  list name := Flow.InStep.perform hK (.listOrphans name)
  remove ref := (Flow.InStep.perform hK (.deleteOrphan ref)).bind fun _ _ _ => Flow.InStep.pure rfl

namespace Dismantler

variable {d : Dismantler} {bound : List (String × Value)}

/-- States that are alike are treated in the same way, and may both be shown when the node is still
there in the end. -/
structure Respects (d : Dismantler) (K : Likeness σ σ') : Prop where
  isNull : ∀ {v v'}, K.state v v' → v'.isNull = v.isNull
  pending : ∀ {v v'}, K.state v v' → d.pending v' = d.pending v
  nameOf : ∀ {v v'}, K.state v v' → d.nameOf v' = d.nameOf v
  isGone : ∀ {v v'}, K.state v v' → d.isGone v' = d.isGone v
  stillPresent : ∀ fields {v v'}, K.state v v' →
    K.event ⟨.error, "teardown.still_present", fields ++ [("last_state", v)]⟩
      ⟨.error, "teardown.still_present", fields ++ [("last_state", v')]⟩

/-- In both worlds it is checked alike whether the node has drained. -/
lemma inStep_drainedCheck (hd : d.Respects K) (hK : K.Answers env env') :
    InStep K Eq Eq (d.drainedCheck env id) (d.drainedCheck env' id) := by
  unfold drainedCheck
  refine (InStep.perform hK (.get id)).bind fun v v' hv => ?_
  rw [hd.isNull hv]
  split
  · exact InStep.pure rfl
  · refine (InStep.see hv).bind_eq fun _ => ?_
    rw [hd.pending hv]
    exact (InStep.ofExcept (fun _ => rfl) _).bind_eq fun _ => InStep.pure rfl

/-- In both worlds the wait for the node to drain ends alike.

**Proof sketch.** The waits end alike. If the time is up, what is pending is read off related
states, which the predicate does not tell apart. -/
lemma inStep_drain (hd : d.Respects K) (hK : K.Answers env env') :
    InStep K Eq Fault.SameKind (d.drain env horizon id bound) (d.drain env' horizon id bound) := by
  unfold drain
  refine InStep.note.bind_eq fun _ => ?_
  refine ((InStep.poll hK (inStep_drainedCheck hd hK) horizon).mono
    Fault.SameKind.of_eq).bind_eq fun o => ?_
  split
  · exact InStep.pure rfl
  · refine InStep.lastSeen.bind fun v v' hv => ?_
    rw [hd.pending hv]
    exact (InStep.ofExcept Fault.SameKind.refl _).bind_eq fun _ => InStep.note.bind_eq fun _ =>
      InStep.raise rfl

/-- In both worlds the node is deleted alike, or fails to be with a fault of the same kind.

**Proof sketch.** The deletion and the state after it are asked for in both. The answers decide in
the same way; the faults differ at most by the last state in them, which does not count for their
kind. -/
lemma inStep_delete (hd : d.Respects K) (hK : K.Answers env env') (started : Float) :
    InStep K Eq Fault.SameKind (d.delete env id started bound)
      (d.delete env' id started bound) := by
  unfold delete
  refine InStep.note.bind_eq fun _ => ?_
  dsimp only
  refine (InStep.perform hK (.delete id)).attempt.bind fun r r' hr => ?_
  cases hr with
  | error h =>
    subst h
    dsimp only
    split
    · exact InStep.raise rfl
    · refine InStep.note.bind_eq fun _ => InStep.lastSeen.bind fun v v' _ => ?_
      refine InStep.bind (V := Fault.SameKind) ?_ fun _ _ hf => InStep.raise hf
      exact InStep.clock.bind_eq fun _ => InStep.pure rfl
  | ok h =>
    obtain rfl := h
    dsimp only
    split
    · refine InStep.note.bind_eq fun _ => InStep.lastSeen.bind fun v v' _ => ?_
      refine InStep.bind (V := Fault.SameKind) ?_ fun _ _ hf => InStep.raise hf
      exact InStep.clock.bind_eq fun _ => InStep.pure rfl
    · refine ((InStep.perform hK (.get id)).mono Fault.SameKind.of_eq).bind fun v v' hv => ?_
      rw [hd.isGone hv]
      refine (InStep.ofExcept Fault.SameKind.refl _).bind_eq fun gone => ?_
      split
      · exact InStep.note
      · refine (InStep.note_of_event (hd.stillPresent bound hv)).bind_eq fun _ => ?_
        refine InStep.bind (V := Fault.SameKind) ?_ fun _ _ hf => InStep.raise hf
        exact InStep.clock.bind_eq fun _ => InStep.pure rfl

section Orphans

variable {source : OrphanSource (World σ)} {source' : OrphanSource (World σ')}

/-- In both worlds a secondary resource is removed alike, and put down in the same way.

**Proof sketch.** The sources remove the resource alike. If they did, the same key is dropped; if
not, the same failure is put down, or the same fault passed on. -/
lemma inStep_removeOrphan (hs : source.InStep K source') (ref : OrphanRef) (so : Cleanup) :
    InStep K Eq Eq (removeOrphan source bound ref so) (removeOrphan source' bound ref so) := by
  unfold removeOrphan
  refine (hs.remove ref).attempt.bind fun r r' hr => ?_
  cases hr with
  | ok h =>
    dsimp only
    cases ref.cacheKey with
    | none => exact InStep.note.bind_eq fun _ => InStep.pure rfl
    | some key =>
      exact (InStep.dropCached key).bind_eq fun _ => InStep.note.bind_eq fun _ => InStep.pure rfl
  | error h =>
    subst h
    dsimp only
    split
    · exact InStep.note.bind_eq fun _ => InStep.pure rfl
    · exact InStep.raise rfl

/-- By induction on the references that are left. -/
lemma inStep_removeOrphans (hs : source.InStep K source') (refs : List OrphanRef) (so : Cleanup) :
    InStep K Eq Eq (removeOrphans source bound refs so) (removeOrphans source' bound refs so) := by
  induction refs generalizing so with
  | nil => exact InStep.pure rfl
  | cons ref rest ih => exact (inStep_removeOrphan hs ref so).bind_eq fun so' => ih so'

/-- In both worlds the secondary resources are listed and removed alike.

**Proof sketch.** Both list first. If the listing succeeds, the same is removed; if it fails, both
note the same failure. -/
lemma inStep_cleanOrphans (hs : source.InStep K source') (name : Value) :
    InStep K Eq Eq (cleanOrphans source bound name) (cleanOrphans source' bound name) := by
  unfold cleanOrphans
  refine InStep.note.bind_eq fun _ => (hs.list name).attempt.bind fun r r' hr => ?_
  cases hr with
  | ok h => exact h ▸ inStep_removeOrphans hs _ {}
  | error h =>
    subst h
    dsimp only
    split
    · exact InStep.note.bind_eq fun _ => InStep.pure rfl
    · exact InStep.raise rfl

end Orphans

/-- **Teardown** goes in step if states that are alike are treated in the same way.

**Proof sketch.** The phases go in step one after the other: the first read, the drain, the deletion
and the cleanup. What is read is null in both or in neither, and has the same name. -/
theorem inStep_destroy (hd : d.Respects K) (hK : K.Answers env env')
    {source : Option (OrphanSource (World σ))} {source' : Option (OrphanSource (World σ'))}
    (hs : Option.Rel (OrphanSource.InStep K) source source') (horizon : Nat) (id : String) :
    InStep K Eq Fault.SameKind (d.destroy env source horizon id)
      (d.destroy env' source' horizon id) := by
  unfold destroy
  refine InStep.clock.bind_eq fun started => ?_
  dsimp only
  refine ((InStep.perform hK (.get id)).mono Fault.SameKind.of_eq).bind fun v v' hv => ?_
  rw [hd.isNull hv, hd.nameOf hv]
  split
  · exact InStep.note.bind_eq fun _ => InStep.clock.bind_eq fun _ => InStep.pure rfl
  · refine (InStep.ofExcept Fault.SameKind.refl _).bind_eq fun name => ?_
    refine (InStep.see hv).bind_eq fun _ => (inStep_drain hd hK).bind_eq fun _ => ?_
    refine (inStep_delete hd hK started).bind_eq fun _ => ?_
    cases hs with
    | none =>
      exact (InStep.pure rfl).bind_eq fun _ => InStep.clock.bind_eq fun _ =>
        InStep.note.bind_eq fun _ => InStep.pure rfl
    | some h =>
      exact ((inStep_cleanOrphans h name).mono Fault.SameKind.of_eq).bind_eq fun _ =>
        InStep.clock.bind_eq fun _ => InStep.note.bind_eq fun _ => InStep.pure rfl

end Dismantler

end NodeKeeper
