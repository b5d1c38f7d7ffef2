import NodeKeeper.Proofs.Flow.Writing
import NodeKeeper.Proofs.Node.Provision
import NodeKeeper.Provider.Flat

/-!
# The stages of a provisioning in the log

A provisioning writes every stage that it comes to in the log: it creates the node, waits for it,
and either the node is ready, or the wait is over, the node is destroyed, and the provisioning has
failed. The last of these stages is written only if the deletion is accepted.

## Main definitions

* `Log.stages` — the stages that events tell.
* `Provisioner.Apart` — what a part of a provisioning that deletes nothing writes.
* `Provisioner.closingStages` — what is written of a node that is taken back.

## Main results

* `Provisioner.provision_stages` — the stages that a provisioning writes, by how it ends.
* `Provisioner.failed_missing` — a provisioning that fails without saying so in the log.

## Implementation notes

Stages are told by their words in the field `state` of an event. Events of the wait itself have no
such field.
-/

namespace NodeKeeper

/-- The stages that events tell, in that order. -/
def Log.stages (events : List Log.Event) : List Value := events.filterMap (·.field? "state")

/-- Stages as events tell them. -/
def ProvisionStage.told (stages : List ProvisionStage) : List Value := stages.map (.text ·.word)

namespace Log

/-- The stages in a log are those of its first part, and then those of its second part. -/
lemma stages_append (a b : List Event) : stages (a ++ b) = stages a ++ stages b :=
  List.filterMap_append

/-- A log without states tells no stages. -/
lemma stages_eq_nil {events : List Event} (h : ∀ x ∈ events, x.field? "state" = none) :
    stages events = [] :=
  List.filterMap_eq_nil_iff.2 h

end Log

namespace Provisioner

open NodeKeeper.Flow (Within Writes)
open ProvisionStage (told)

variable {σ : Type} {α β : Type} {p : Provisioner} {env : Surroundings σ} {req : ProvisionRequest}

/-- A fault was passed on: a call or a pause ended with it, or the provider's look at a state. -/
def PassedOn (p : Provisioner) (tr : List Happening) (f : Fault) : Prop :=
  (∃ h ∈ tr, h.fault? = some f) ∨ ∃ v, p.isReady v = .error f

/-- Nothing is deleted, these stages are written, and a timeout is passed on from elsewhere. -/
structure Apart (p : Provisioner) (stages : List ProvisionStage) (tr : List Happening)
    (ev : List Log.Event) (e : Ending α) : Prop where
  kept : ∀ h ∈ tr, h.isDelete = false
  stages : Log.stages ev = told stages
  fault : ∀ f, e = .raised f → f.kind = .readinessTimeout → p.PassedOn tr f

namespace Apart

variable {s s' : List ProvisionStage} {tr tr' : List Happening} {ev ev' : List Log.Event}
  {e : Ending α} {e' : Ending β}

/-- Parts of a provision that delete nothing are one part that deletes nothing, and their stages
follow on each other. -/
lemma append (h : p.Apart s tr ev e) (h' : p.Apart s' tr' ev' e') :
    p.Apart (s ++ s') (tr ++ tr') (ev ++ ev') e' where
  kept x hx := (List.mem_append.1 hx).elim (h.kept x) (h'.kept x)
  stages := by rw [Log.stages_append, h.stages, h'.stages, told, told, told, List.map_append]
  fault f hf hk := (h'.fault f hf hk).imp_left fun ⟨x, hx, hxf⟩ =>
    ⟨x, List.mem_append_right _ hx, hxf⟩

/-- What a part writes does not depend on what it would have come to. -/
lemma congr (h : p.Apart s tr ev e) (he : e.fault? = e'.fault?) : p.Apart s tr ev e' := by
  refine ⟨h.kept, h.stages, ?_⟩
  rintro f rfl
  exact h.fault f (Ending.eq_raised_of_fault? he)

/-- A part that returns has no fault to be passed on, so that it has to delete nothing and to write
its stages. -/
lemma returned {a : α} (hkept : ∀ h ∈ tr, h.isDelete = false) (hs : Log.stages ev = told s) :
    p.Apart s tr ev (.returned a) :=
  ⟨hkept, hs, by simp⟩

/-- The fault of a call that does not delete is passed on. -/
lemma of_called {c : Call} {f : Fault} (hkept : (Happening.called c (.error f)).isDelete = false)
    (hs : Log.stages ev = told s) : p.Apart s [.called c (.error f)] ev (.raised f : Ending α) :=
  ⟨by simpa using hkept, hs, fun _ hg _ => Or.inl ⟨.called c (.error f), by simp,
    congrArg some (Ending.raised.inj hg)⟩⟩

/-- A fault of another kind is no timeout. -/
lemma of_kind {f : Fault} (hkept : ∀ h ∈ tr, h.isDelete = false) (hs : Log.stages ev = told s)
    (hf : f.kind ≠ .readinessTimeout) : p.Apart s tr ev (.raised f : Ending α) :=
  ⟨hkept, hs, fun _ hg hk => absurd (Ending.raised.inj hg ▸ hk) hf⟩

end Apart

/-- What is written of a node that is taken back, by the call that deletes it. -/
def closingStages (deletion : Happening) : List ProvisionStage :=
  [.timedOut, .destroying] ++ if deletion.isAccepted then [.failed] else []

/-! ## The parts -/

/-- Launching writes that the node is created, and then that it is waited for.

**Proof sketch.** That the node is created is written before the call. If it succeeds, that it is
waited for is written next; if it fails, nothing is written that is a stage. -/
lemma writes_launch (p : Provisioner) (env : Surroundings σ) (req : ProvisionRequest) :
    (p.launch env req).Writes fun tr ev e =>
      match e with
      | .returned handle => tr = [.called (.create req) (.ok handle)] ∧
          p.Apart [.creating, .waitingReady] tr ev e
      | .raised _ => p.Apart [.creating] tr ev e
      | .unfinished => False := by
  unfold launch
  refine Writes.note_bind (Writes.bind ?_)
  unfold create
  refine Writes.attempt_bind fun created => ?_
  cases created with
  | ok handle =>
    refine Writes.pure (Writes.see_bind (Writes.note_bind (Writes.note_bind (Writes.pure ?_))))
    exact ⟨rfl, Apart.returned (by simp [Happening.isDelete]) rfl⟩
  | error f =>
    dsimp only
    split
    · exact Writes.raise (Apart.of_called rfl rfl)
    · refine Writes.note_bind (Writes.raise (Apart.of_kind ?_ rfl ?_))
      · simp [Happening.isDelete]
      · simp [Fault.kind]

/-- One check writes nothing.

**Proof sketch.** The check is one read. A fault of it is not a timeout, unless it comes from the
predicate. -/
lemma writes_readyCheck (p : Provisioner) (env : Surroundings σ) (id : String) :
    (p.readyCheck env id).Writes (Within (·.isDelete = false) (·.field? "state" = none)
      fun f => f.kind = .readinessTimeout → ∃ v, p.isReady v = .error f) := by
  unfold readyCheck
  refine Writes.perform_bind (fun v => Writes.see_bind ?_) fun f => ?_
  · have hread : (Happening.called (.get id) (.ok v)).isDelete = false := rfl
    split
    · exact Writes.pure (Within.happening hread (by simp))
    · refine Writes.ofExcept (fun b hb => Within.happening hread (by simp)) fun f hf => ?_
      exact ⟨by simpa using hread, by simp, fun g hg => Or.inl fun _ =>
        ⟨v, Ending.raised.inj hg ▸ hf⟩⟩
  · exact Within.happening rfl fun g hg => congrArg some (Ending.raised.inj hg)

/-- The wait writes no stage.

**Proof sketch.** Neither the wait nor its checks write a stage. If a fault cuts the wait short, one
more event is written, which has no stage either. -/
lemma writes_awaitReady (p : Provisioner) (env : Surroundings σ) (horizon : Nat) (id : String)
    (req : ProvisionRequest) :
    (p.awaitReady env horizon id (boundOf req id)).Writes (p.Apart []) := by
  have hwait := Poll.writes_poll env (s := p.settings id) (fun _ => rfl)
    (fun n => by cases n <;> rfl) (writes_readyCheck p env id)
    (by simp [Fault.badValue, Fault.kind]) horizon
  unfold awaitReady
  refine Writes.bind (Writes.attempt (hwait.mono fun tr ev e H => ?_))
  have hstages : Log.stages ev = told [] := Log.stages_eq_nil H.events
  cases e with
  | returned o => exact Writes.pure (Apart.returned (by simpa using H.happenings) (by simpa))
  | raised f =>
    have hpassed (hk : f.kind = .readinessTimeout) : p.PassedOn tr f :=
      (H.fault f rfl).symm.imp_right fun hf => hf hk
    have hraised {ev' : List Log.Event} (hev : Log.stages ev' = []) :
        p.Apart [] (tr ++ []) (ev ++ ev') (.raised f : Ending (Poll.Outcome Float)) := by
      refine ⟨by simpa using H.happenings, ?_, ?_⟩
      · rw [Log.stages_append, hstages, hev]
        rfl
      · rintro g ⟨⟩ hk
        simpa using hpassed hk
    dsimp only
    split
    · exact Writes.lastSeen_bind fun v => Writes.note_bind (Writes.raise (hraised rfl))
    · exact Writes.raise (hraised rfl)
  | unfinished => exact ⟨H.happenings, hstages, by simp⟩

/-- Handing over writes that the node is ready if it comes to a result.

**Proof sketch.** Nothing is written before the login was read. If it is there, that the node is
ready is written; all faults leave it unwritten, and are not timeouts of the wait. -/
lemma writes_handOver (p : Provisioner) (env : Surroundings σ) (id : String)
    (o : Poll.Outcome Float) (req : ProvisionRequest) :
    (p.handOver env id o (boundOf req id)).Writes fun tr ev e =>
      match e with
      | .returned _ => p.Apart [.ready] tr ev e
      | .raised _ => p.Apart [] tr ev e
      | .unfinished => False := by
  unfold handOver
  refine Writes.bind ?_
  unfold finalLogin
  refine Writes.perform_bind (fun u => ?_) fun f => Apart.of_called rfl rfl
  have hread : ∀ h ∈ [Happening.called (.get id) (.ok u)], h.isDelete = false := by
    simp [Happening.isDelete]
  split
  · refine Writes.lastSeen_bind fun v => Writes.raise ?_
    exact Apart.of_kind hread rfl (by simp [Fault.kind])
  · refine Writes.see_bind ?_
    split
    · refine Writes.pure (Writes.note_bind (Writes.lastSeen_bind fun v => Writes.pure ?_))
      exact Apart.returned hread rfl
    · exact Writes.raise (Apart.of_kind hread rfl (by simp [Fault.kind]))
    · next f hf =>
      split
      · exact Writes.raise (Apart.of_kind hread rfl (by simp [Fault.kind]))
      · next ho =>
        refine Writes.raise (Apart.of_kind hread rfl fun hk => ho ?_)
        rw [Fault.isOrdinary, Fault.isA, hk]
        rfl

/-- How taking back a node ends: with the fault of the deletion, if that cannot be handled, and with
a timeout otherwise. -/
def GaveUp (out : Except Fault Value) (deletion : Happening) (e : Ending Provisioned) : Prop :=
  ∃ f, e = .raised f ∧ ((out = .error f ∧ f.isOrdinary = false) ∨
    f.kind = .readinessTimeout ∧ (f.cleanup? = none ↔ deletion.isAccepted = true))

/-- A node that did not get ready is deleted. Whatever comes of this, its stages are written with
its identifier.

**Proof sketch.** That the time is up and that the node is destroyed is written before the call.
What is written behind it depends on its answer, and says that it has failed only if the deletion
was accepted. -/
lemma writes_giveUp (p : Provisioner) (env : Surroundings σ) (id : String)
    (o : Poll.Outcome Float) (req : ProvisionRequest) :
    (p.giveUp env id o (boundOf req id)).Writes fun tr ev e =>
      ∃ out, tr = [.called (.delete id) out] ∧
        Log.stages ev = told (closingStages (.called (.delete id) out)) ∧
        (∀ x ∈ ev, x.field? "resource_id" = some (.text id)) ∧
        GaveUp out (.called (.delete id) out) e := by
  unfold giveUp
  refine Writes.note_bind (Writes.bind ?_)
  unfold takeBack
  refine Writes.note_bind (Writes.attempt_bind fun out => ?_)
  cases out with
  | ok accepted =>
    dsimp only
    split
    · next ha =>
      refine Writes.note_bind (Writes.pure (Writes.lastSeen_bind fun v => Writes.raise ?_))
      have haccepted : (Happening.called (.delete id) (.ok accepted)).isAccepted = true := ha
      refine ⟨.ok accepted, rfl, ?_, ?_, _, rfl, Or.inr ⟨rfl, by simp [haccepted, Fault.cleanup?]⟩⟩
      · rw [closingStages, if_pos haccepted]
        rfl
      · simp only [List.append_nil, List.forall_mem_cons]
        exact ⟨rfl, rfl, rfl, by simp⟩
    · next ha =>
      refine Writes.note_bind (Writes.pure (Writes.lastSeen_bind fun v => Writes.raise ?_))
      have hrejected : ¬ (Happening.called (.delete id) (.ok accepted)).isAccepted = true := ha
      refine ⟨.ok accepted, rfl, ?_, ?_, _, rfl, Or.inr ⟨rfl, by simp [hrejected, Fault.cleanup?]⟩⟩
      · rw [closingStages, if_neg hrejected]
        rfl
      · simp only [List.append_nil, List.forall_mem_cons]
        exact ⟨rfl, rfl, rfl, by simp⟩
  | error f =>
    dsimp only
    split
    · refine Writes.note_bind (Writes.pure (Writes.lastSeen_bind fun v => Writes.raise ?_))
      refine ⟨.error f, rfl, rfl, ?_, _, rfl, Or.inr ⟨rfl, ?_⟩⟩
      · simp only [List.append_nil, List.forall_mem_cons]
        exact ⟨rfl, rfl, rfl, by simp⟩
      · simp [Happening.isAccepted, Fault.cleanup?]
    · next ho =>
      refine Writes.raise ⟨.error f, rfl, rfl, ?_, f, rfl, Or.inl ⟨rfl, by simpa using ho⟩⟩
      simp only [List.forall_mem_cons]
      exact ⟨rfl, rfl, by simp⟩

/-! ## The whole provisioning -/

/-- What a provisioning does and writes, by whether it takes the node back. -/
inductive Recorded (p : Provisioner) (req : ProvisionRequest) :
    List Happening → List Log.Event → Ending Provisioned → Prop
  | kept {stages : List ProvisionStage} {tr : List Happening} {ev : List Log.Event}
      {e : Ending Provisioned} (H : p.Apart stages tr ev e)
      (hstages : stages <+: [.creating, .waitingReady, .ready])
      (hready : .ready ∈ stages ↔ ∃ r, e = .returned r) : Recorded p req tr ev e
  | takenBack {handle : Handle} {waits : List Happening} {out : Except Fault Value}
      {early late : List Log.Event} {e : Ending Provisioned}
      (hwaits : ∀ h ∈ waits, h.isDelete = false)
      (hearly : Log.stages early = told [.creating, .waitingReady])
      (hlate : Log.stages late = told (closingStages (.called (.delete handle.id) out)))
      (hid : ∀ x ∈ late, x.field? "resource_id" = some (.text handle.id))
      (hgave : GaveUp out (.called (.delete handle.id) out) e) :
      Recorded p req
        (.called (.create req) (.ok handle) :: (waits ++ [.called (.delete handle.id) out]))
        (early ++ late) e

/-- A provision writes its stages as it is recorded: in all of its endings, and in each ending those
that lead to it.

**Proof sketch.** The phases are put together. If the creation fails, one stage was written; if the
wait fails, two; if the node is handed over, three; and if it is given up, those of `writes_giveUp`
follow. -/
lemma writes_provision (p : Provisioner) (env : Surroundings σ) (horizon : Nat)
    (req : ProvisionRequest) : (p.provision env horizon req).Writes (p.Recorded req) := by
  unfold provision
  refine Writes.bind ((writes_launch p env req).mono fun tr ev e H => ?_)
  cases e with
  | unfinished => exact H.elim
  | raised f =>
    have H : p.Apart [.creating] tr ev (.raised f : Ending Handle) := H
    exact .kept (H.congr rfl) (by decide) (by simp)
  | returned handle =>
    obtain ⟨rfl, H⟩ := H
    refine Writes.bind ((writes_awaitReady p env horizon handle.id req).mono ?_)
    intro tr' ev' e' H'
    replace H' := H.append H'
    cases e' with
    | unfinished => exact .kept (H'.congr rfl) (by decide) (by simp)
    | raised f => exact .kept (H'.congr rfl) (by decide) (by simp)
    | returned o =>
      dsimp only
      split
      · refine (writes_handOver p env handle.id o req).mono fun tr'' ev'' e'' H'' => ?_
        rw [← List.append_assoc, ← List.append_assoc]
        cases e'' with
        | unfinished => exact H''.elim
        | raised f =>
          have H'' : p.Apart [] tr'' ev'' (.raised f : Ending Provisioned) := H''
          exact .kept (H'.append H'') (by decide) (by simp)
        | returned r =>
          have H'' : p.Apart [.ready] tr'' ev'' (.returned r) := H''
          exact .kept (H'.append H'') (by decide) (by simp)
      · refine (writes_giveUp p env handle.id o req).mono ?_
        rintro _ ev'' e'' ⟨out, rfl, hlate, hid, hgave⟩
        rw [← List.append_assoc ev]
        exact .takenBack (fun h hh => H'.kept h (List.mem_append_right _ hh)) H'.stages hlate hid
          hgave

/-- Of the stages up to a ready node, the ready node is the last. -/
lemma getLast?_told {stages : List ProvisionStage}
    (h : stages <+: [.creating, .waitingReady, .ready]) :
    (told stages).getLast? = some (.text ProvisionStage.ready.word) ↔ .ready ∈ stages := by
  have hcases : stages = [] ∨ stages = [.creating] ∨ stages = [.creating, .waitingReady] ∨
      stages = [.creating, .waitingReady, .ready] := by
    simpa [List.prefix_cons_iff, and_or_left, exists_or] using h
  rcases hcases with rfl | rfl | rfl | rfl <;> simp [told, ProvisionStage.word]

/-- **The stages of a provisioning.** What a provisioning writes goes through the stages in their
order, up to a ready node or up to a failure, and it gets to a ready node if and only if it comes to
a result. If the node is taken back, its identifier stands in every event from the end of the wait
on. The log gets to the failure if and only if the deletion is accepted: a provisioning whose
deletion fails or is rejected ends with a timeout like any other, and carries why the node is still
there, but does not write that it has failed. A timeout without a deletion is passed on from
elsewhere.

**Proof sketch.** The parts of the flow write their stages one after the other, and the wait writes
none. -/
theorem provision_stages (p : Provisioner) (env : Surroundings σ) (horizon : Nat)
    (req : ProvisionRequest) (w : World σ) :
    ∃ tr events, (p.provision env horizon req w).2.history = w.history ++ tr ∧
      (p.provision env horizon req w).2.log = w.log ++ events ∧
      (Log.stages events <+: told [.creating, .waitingReady, .ready] ∨
        Log.stages events <+: told [.creating, .waitingReady, .timedOut, .destroying, .failed]) ∧
      ((Log.stages events).getLast? = some (.text ProvisionStage.ready.word) ↔
        ∃ r, (p.provision env horizon req w).1 = .returned r) ∧
      -- the node is taken back
      (∀ id out, .called (.delete id) out ∈ tr →
        (∃ handle, .called (.create req) (.ok handle) ∈ tr ∧ handle.id = id) ∧
        (∃ early late, events = early ++ late ∧
          Log.stages early = told [.creating, .waitingReady] ∧
          Log.stages late = told ([.timedOut, .destroying] ++
            if (Happening.called (.delete id) out).isAccepted then [.failed] else []) ∧
          ∀ x ∈ late, x.field? "resource_id" = some (.text id)) ∧
        ∃ f, (p.provision env horizon req w).1 = .raised f ∧
          (out = .error f ∧ f.isOrdinary = false ∨ f.kind = .readinessTimeout ∧
            (f.cleanup? = none ↔ (Happening.called (.delete id) out).isAccepted = true))) ∧
      -- any other timeout
      ((∀ id out, .called (.delete id) out ∉ tr) →
        ∀ f, (p.provision env horizon req w).1 = .raised f → f.kind = .readinessTimeout →
          p.PassedOn tr f) := by
  obtain ⟨tr, events, htr, hevents, H⟩ := writes_provision p env horizon req w
  refine ⟨tr, events, htr, hevents, ?_⟩
  generalize (p.provision env horizon req w).1 = e at H ⊢
  cases H with
  | @kept stages _ _ _ H hstages hready =>
    refine ⟨Or.inl ?_, ?_, fun id out hmem => ?_, fun _ => H.fault⟩
    · rw [H.stages]
      exact hstages.map _
    · rw [H.stages, ← hready]
      exact getLast?_told hstages
    · exact absurd (H.kept _ hmem) (by simp [Happening.isDelete])
  | @takenBack handle waits out early late _ hwaits hearly hlate hid hgave =>
    have hdeletion {id : String} {out' : Except Fault Value}
        (hmem : .called (.delete id) out' ∈ .called (.create req) (.ok handle) ::
          (waits ++ [Happening.called (.delete handle.id) out])) :
        id = handle.id ∧ out' = out := by
      rcases List.mem_cons.1 hmem with h | h
      · exact absurd h (by simp)
      · rcases List.mem_append.1 h with h | h
        · exact absurd (hwaits _ h) (by simp [Happening.isDelete])
        · simpa using h
    have hstages : Log.stages (early ++ late) = told [.creating, .waitingReady] ++
        told (closingStages (.called (.delete handle.id) out)) := by
      rw [Log.stages_append, hearly, hlate]
    refine ⟨Or.inr ?_, ?_, fun id out' hmem => ?_, fun hno => ?_⟩
    · rw [hstages, closingStages]
      split
      · exact List.prefix_rfl
      · exact ⟨told [.failed], rfl⟩
    · obtain ⟨f, rfl, -⟩ := hgave
      rw [hstages, closingStages]
      split <;> simp [told, ProvisionStage.word]
    · obtain ⟨rfl, rfl⟩ := hdeletion hmem
      exact ⟨⟨handle, by simp, rfl⟩, ⟨early, late, rfl, hearly, hlate, hid⟩, hgave⟩
    · exact absurd (by simp) (hno handle.id out)

/-- A node that says it is not ready, and whose deletion is not accepted. -/
def clinging : Script where
  created := [⟨none, .ok { id := "42" }⟩]
  states := [⟨none, .ok (.record [("ready", .bool false)])⟩]
  deleted := [⟨none, .ok (.bool false)⟩]

/-- A node is ready if it says so, and there are two seconds to say it. -/
def hasty : Provisioner where
  isReady := Flat.isReady
  login? := Flat.login?
  timeout := 2.0

/-- **A failure that is not written.** The node does not get ready, its deletion is rejected, and
the provisioning ends with a timeout. The last stage in the log is that the node is being destroyed.

**Proof sketch.** What is written in this run, and the kind of its fault, is computed. -/
theorem failed_missing :
    let run := hasty.provision Script.surroundings 5 ⟨.record [], "web", "web-1a2"⟩
      { backend := clinging }
    (∃ f, run.1 = .raised f ∧ f.kind = .readinessTimeout) ∧
      (Log.stages run.2.log).map Value.shown =
        ["creating", "waiting_ready", "timed_out", "destroying"] ∧
      Log.stages run.2.log ≠ told [.creating, .waitingReady, .timedOut, .destroying, .failed] := by
  intro run
  have hkind : run.1.fault?.map Fault.kind = some .readinessTimeout := by decide +kernel
  have hshown : (Log.stages run.2.log).map Value.shown =
      ["creating", "waiting_ready", "timed_out", "destroying"] := by decide +kernel
  obtain ⟨f, hf, hk⟩ := Option.map_eq_some_iff.1 hkind
  refine ⟨⟨f, Ending.eq_raised_of_fault? hf, hk⟩, hshown, fun h => ?_⟩
  have hlength := congrArg List.length hshown
  rw [List.length_map, h] at hlength
  exact absurd hlength (by decide)

end Provisioner

end NodeKeeper
