import NodeKeeper.Node.Provision
import NodeKeeper.Proofs.Decimal.Order
import NodeKeeper.Proofs.Flow.Waiting
import NodeKeeper.Proofs.Node.Happenings
import NodeKeeper.Provider.Scripted

/-!
# The outcome of a provisioning

A provisioning creates the node and reads it again and again until the wait is over. A node that got
ready is read once more for its login credentials, one that did not is deleted, and one whose wait
was ended by a fault is left as it is. How the provisioning ends follows from these calls.

## Main definitions

* `Provisioner.IsReady` — what is read shows that the node is ready.
* `Provisioner.Watched` — what a wait for a node goes through, and what it makes the last state.

## Main results

* `Provisioner.meets_watch` — what a wait for a node goes through, for any settings.
* `Provisioner.provision_outcome` — the calls of a provisioning, and how it ends.

## Implementation notes

The parts of the flow meet conditions on their own calls. The wait is not only specified but also
named in the main result, since its ending decides which call comes last.
-/

namespace NodeKeeper.Provisioner

open NodeKeeper.Flow (Meets)

variable {σ : Type} {p : Provisioner} {env : Surroundings σ} {id : String} {m : World.Mind}

/-- What is read shows that the node is ready. -/
def IsReady (p : Provisioner) (v : Value) : Prop := v.isNull = false ∧ p.isReady v = .ok true

/-! ## Creating -/

/-- How a failed creation is reported: faults of lifecycle flows and those that cannot be handled
stay what they are. -/
def refusal (req : ProvisionRequest) (f : Fault) : Fault :=
  if f.isLifecycle || !f.isOrdinary then f
  else .causedBy (.lifecycle .createFailed
    s!"Failed to create {req.instanceName} in group {req.group}: {f.message}" {}) f

/-- Launching takes one call. The status of the node becomes the last state.

**Proof sketch.** Nothing but the creation is called for. A fault is passed on or wrapped as
`refusal` says; a handle has its status put in mind. -/
lemma meets_launch (p : Provisioner) (env : Surroundings σ) (req : ProvisionRequest) :
    (p.launch env req).Meets m fun tr e m' => ∃ created, tr = [.called (.create req) created] ∧
      match created with
      | .ok handle => e = .returned handle ∧ m' = { m with seen := handle.status }
      | .error f => e = .raised (refusal req f) ∧ m' = m := by
  unfold launch
  refine Meets.note_bind (Meets.bind ?_)
  unfold create
  refine Meets.attempt_bind fun created => ?_
  cases created with
  | ok handle =>
    refine Meets.pure (Meets.see_bind (Meets.note_bind (Meets.note_bind (Meets.pure ?_))))
    exact ⟨.ok handle, rfl, rfl, rfl⟩
  | error f =>
    dsimp only
    split
    · next hf => exact Meets.raise ⟨.error f, rfl, by rw [refusal, if_pos hf], rfl⟩
    · next hf =>
      exact Meets.note_bind (Meets.raise ⟨.error f, rfl, by rw [refusal, if_neg hf], rfl⟩)

/-! ## Waiting -/

/-- One check reads the node once. Whatever is read becomes the last state, and the check passes if
and only if it shows that the node is ready.

**Proof sketch.** The state is read once. If it is not null, it is ready if the login and the rest
can be read from it; if the read failed, so does the check. -/
lemma meets_readyCheck :
    (p.readyCheck env id).Meets m fun tr e m' => m'.cache = m.cache ∧ e ≠ .unfinished ∧
      ∃ out, tr = [.called (.get id) out] ∧
        match out with
        | .ok v => m'.seen = v ∧ (e = .returned true ↔ p.IsReady v)
        | .error f => m'.seen = m.seen ∧ e = .raised f := by
  unfold readyCheck
  refine Meets.perform_bind (fun v => Meets.see_bind ?_) fun f => ?_
  · split
    · next hn =>
      exact Meets.pure ⟨rfl, by simp, _, rfl, rfl, by simp [IsReady, hn]⟩
    · next hn =>
      refine Meets.ofExcept (fun b hb => ?_) fun f hf => ?_
      · exact ⟨rfl, by simp, _, rfl, rfl, by simp [IsReady, hn, hb]⟩
      · exact ⟨rfl, by simp, _, rfl, rfl, by simp [IsReady, hf]⟩
  · exact ⟨rfl, by simp, _, rfl, rfl, rfl⟩

/-- What a wait for a node goes through with so many reads: no other call is made, and what was read
last is the last state. -/
structure Watched (id : String) (m : World.Mind) (n : Nat) (tr : List Happening) (m' : World.Mind) :
    Prop where
  calls : tr.filterMap Happening.call? = List.replicate n (.get id)
  seen : m'.seen = lastRead m.seen tr
  cache : m'.cache = m.cache

namespace Watched

variable {n : Nat} {tr : List Happening} {m' m'' : World.Mind}

/-- One more read of the state is watched: it is the last one from then on, if it was answered. -/
lemma read (H : Watched id m n tr m') {out : Except Fault Value} (hc : m''.cache = m'.cache)
    (hs : m''.seen = match out with | .ok v => v | .error _ => m'.seen) :
    Watched id m (n + 1) (tr ++ [.called (.get id) out]) m'' where
  calls := by
    rw [List.filterMap_append, H.calls, List.replicate_succ']
    rfl
  seen := by
    rw [hs]
    cases out with
    | ok v => exact (lastRead_append_of_read rfl).symm
    | error f => exact H.seen.trans (lastRead_append_of_none rfl).symm
  cache := hc.trans H.cache

/-- A pause changes nothing about what was watched. -/
lemma paused (H : Watched id m n tr m') (s : Float) (cut : Option Fault) :
    Watched id m n (tr ++ [.paused s cut]) m' where
  calls := by
    rw [List.filterMap_append, H.calls]
    exact List.append_nil _
  seen := H.seen.trans (lastRead_append_of_none rfl).symm
  cache := H.cache

end Watched

/-- How a wait for a node ends: it says how many reads it took, and whether the last one shows that
the node is ready. -/
def Ended (p : Provisioner) (id : String) (m : World.Mind) (tr : List Happening)
    (e : Ending (Poll.Outcome Float)) (m' : World.Mind) : Prop :=
  ∃ n, Watched id m n tr m' ∧ ∀ o, e = .returned o → o.attempts = n ∧
    (o.ready = true → ∃ before v, tr = before ++ [.called (.get id) (.ok v)] ∧ p.IsReady v)

/-- A wait that has watched the node, and does not find it ready, ends with what was watched. -/
lemma Watched.ended {n : Nat} {tr : List Happening} {m' : World.Mind} (H : Watched id m n tr m')
    {e : Ending (Poll.Outcome Float)} (he : ∀ o, e = .returned o → o = ⟨false, n, o.elapsed⟩) :
    p.Ended id m tr e m' := by
  refine ⟨n, H, fun o ho => ?_⟩
  rw [he o ho]
  exact ⟨rfl, fun h => absurd h Bool.false_ne_true⟩

/-- The wait for a node keeps watching it: each attempt is a read, and each pause is a pause.

**Proof sketch.** Each attempt adds one read, and its state becomes the last one. The wait ends as
ready with a read that shows the node ready, and in no other way. -/
lemma keeps_watched (s : Poll.Settings Float) (m : World.Mind) :
    Poll.Keeps s (p.readyCheck env id) (Watched id m) (Watched id m) (p.Ended id m) where
  attempt := by
    intro n tr m₁ H
    refine meets_readyCheck.mono ?_
    rintro _ e m₂ ⟨hc, he, out, rfl, hout⟩
    have H' : Watched id m (n + 1) (tr ++ [.called (.get id) out]) m₂ := by
      refine H.read hc ?_
      cases out with
      | ok v => exact hout.1
      | error f => exact hout.1
    cases e with
    | returned passed =>
      cases passed with
      | true =>
        intro t
        refine ⟨n + 1, H', ?_⟩
        rintro o ⟨⟩
        cases out with
        | ok v => exact ⟨rfl, fun _ => ⟨tr, v, rfl, hout.2.1 rfl⟩⟩
        | error f => exact absurd hout.2 (by simp)
      | false => exact H'
    | raised f =>
      dsimp only
      split
      · exact H'
      · exact H'.ended (by simp)
    | unfinished => exact absurd rfl he
  late n tr m' t H := H.ended (by rintro o ⟨⟩; rfl)
  cease n tr m' H := H.ended (by simp)
  pause n tr m' H := H.paused _ _
  cut n tr m' f H := (H.paused _ _).ended (by simp)

/-- **A wait for a node** reads the node and does nothing else. If it is over because the node got
ready, then the last read shows that. -/
lemma meets_watch (env : Surroundings σ) (id : String)
    (hbounds : ¬ p.timeout ≤ 0 ∧ ¬ p.period ≤ 0) (horizon : Nat) :
    (World.poll env (p.settings id) (p.readyCheck env id) horizon).Meets m (p.Ended id m) :=
  (keeps_watched (p.settings id) m).meets_poll env horizon ⟨rfl, rfl, rfl⟩ fun h =>
    absurd h (not_or.2 hbounds)

/-- The wait of the flow ends as the wait itself does. It adds nothing but a note in the log.

**Proof sketch.** The end of the wait is passed on. What is raised may be noted before, which is no
happening. -/
lemma awaitReady_of_poll {horizon : Nat} {w w' : World σ} {e : Ending (Poll.Outcome Float)}
    (h : World.poll env (p.settings id) (p.readyCheck env id) horizon w = (e, w'))
    (bound : List (String × Value)) :
    ∃ w'', p.awaitReady env horizon id bound w = (e, w'') ∧ w''.history = w'.history ∧
      w''.mind = w'.mind := by
  change ∃ w'', Flow.andThen _ _ w = (e, w'') ∧ _
  rw [Flow.andThen, Flow.attempt, h]
  cases e with
  | returned o => exact ⟨w', rfl, rfl, rfl⟩
  | raised f =>
    dsimp only
    split
    · exact ⟨_, rfl, rfl, rfl⟩
    · exact ⟨w', rfl, rfl, rfl⟩
  | unfinished => exact ⟨w', rfl, rfl, rfl⟩

/-! ## Handing over and taking back -/

/-- How a node that got ready is handed over: after one more read, if this finds the node and the
login credentials in it. -/
def HandedOver (p : Provisioner) (id : String) (o : Poll.Outcome Float) (tr : List Happening)
    (e : Ending Provisioned) : Prop :=
  e ≠ .unfinished ∧ ∃ out, tr = [.called (.get id) out] ∧
    ∀ r, e = .returned r ↔ ∃ u, out = .ok u ∧ u.isNull = false ∧
      p.login? u = .ok (some r.login) ∧ r = ⟨⟨id, u⟩, r.login, o.elapsed, .ready⟩

/-- Handing a node over reads its login from what the flow has in mind, and calls for nothing but
one more read of the state, if at all.

**Proof sketch.** The login is read from one more state. Only if it is not null and has the login,
the node is handed over; in all other cases some fault is raised, and nothing else is called for. -/
lemma meets_handOver (p : Provisioner) (env : Surroundings σ) (o : Poll.Outcome Float)
    (bound : List (String × Value)) :
    (p.handOver env id o bound).Meets m fun tr e _ => p.HandedOver id o tr e := by
  have hfailed {out : Except Fault Value} (f : Fault)
      (hout : ∀ u login, out = .ok u → u.isNull = false → p.login? u ≠ .ok (some login)) :
      p.HandedOver id o [.called (.get id) out] (.raised f) := by
    refine ⟨by simp, out, rfl, fun r => ⟨by simp, ?_⟩⟩
    rintro ⟨u, hu, hn, hl, -⟩
    exact absurd hl (hout u _ hu hn)
  unfold handOver
  refine Meets.bind ?_
  unfold finalLogin
  refine Meets.perform_bind (fun u => ?_) fun f => hfailed f (by simp)
  split
  · next hn =>
    refine Meets.lastSeen_bind (Meets.raise (hfailed _ ?_))
    rintro v login ⟨⟩ hv
    rw [hn] at hv
    exact absurd hv.symm Bool.false_ne_true
  · next hn =>
    refine Meets.see_bind ?_
    split
    · next login hl =>
      refine Meets.pure (Meets.note_bind (Meets.lastSeen_bind (Meets.pure ?_)))
      refine ⟨by simp, .ok u, rfl, fun r => ⟨?_, ?_⟩⟩
      · rintro ⟨⟩
        exact ⟨u, rfl, by simpa using hn, hl, rfl⟩
      · rintro ⟨v, ⟨⟩, -, hl', hr⟩
        obtain rfl : login = r.login := by simpa [hl] using hl'
        rw [hr]
    · next hl =>
      refine Meets.raise (hfailed _ ?_)
      rintro v login ⟨⟩ -
      simp [hl]
    · next f hl =>
      have hnone (g : Fault) : p.HandedOver id o [.called (.get id) (.ok u)] (.raised g) := by
        refine hfailed g ?_
        rintro v login ⟨⟩ -
        simp [hl]
      split
      · exact Meets.raise (hnone _)
      · exact Meets.raise (hnone _)

/-- How a node that did not get ready is taken back: by deleting it. The fault says whether that
worked, and what the last state is. A fault of the deletion that cannot be handled stays what it is.
-/
def TakenBack (id : String) (seen : Value) (tr : List Happening) (e : Ending Provisioned) : Prop :=
  ∃ out, tr = [.called (.delete id) out] ∧
    ((∃ f, out = .error f ∧ f.isOrdinary = false ∧ e = .raised f) ∨
      (∀ f, out = .error f → f.isOrdinary = true) ∧
        ∃ f context, e = .raised f ∧ f.kind = .readinessTimeout ∧ f.context? = some context ∧
          context.lastState = seen ∧
          (f.cleanup? = none ↔ ∃ accepted, out = .ok accepted ∧ accepted.isTruthy = true))

/-- Giving a node up takes it back, with one deletion, and fails whatever comes of that.

**Proof sketch.** Nothing but the deletion is called for. A fault that can be handled becomes part
of the timeout that is raised, and so does an answer that rejects the deletion; any other fault
takes the place of the timeout. -/
lemma meets_giveUp (p : Provisioner) (env : Surroundings σ) (o : Poll.Outcome Float)
    (bound : List (String × Value)) :
    (p.giveUp env id o bound).Meets m fun tr e _ => TakenBack id m.seen tr e := by
  unfold giveUp
  refine Meets.note_bind (Meets.bind ?_)
  unfold takeBack
  refine Meets.note_bind (Meets.attempt_bind fun out => ?_)
  cases out with
  | ok accepted =>
    dsimp only
    split
    · next ha =>
      refine Meets.note_bind (Meets.pure (Meets.lastSeen_bind (Meets.raise ?_)))
      exact ⟨.ok accepted, rfl, Or.inr ⟨by simp, _, _, rfl, rfl, rfl, rfl,
        ⟨fun _ => ⟨accepted, rfl, ha⟩, fun _ => rfl⟩⟩⟩
    · next ha =>
      refine Meets.note_bind (Meets.pure (Meets.lastSeen_bind (Meets.raise ?_)))
      exact ⟨.ok accepted, rfl, Or.inr ⟨by simp, _, _, rfl, rfl, rfl, rfl,
        by simp [Fault.cleanup?, ha]⟩⟩
  | error f =>
    dsimp only
    split
    · next ho =>
      refine Meets.note_bind (Meets.pure (Meets.lastSeen_bind (Meets.raise ?_)))
      exact ⟨.error f, rfl, Or.inr ⟨by simpa using ho, _, _, rfl, rfl, rfl, rfl,
        by simp [Fault.cleanup?]⟩⟩
    · next ho =>
      exact Meets.raise ⟨.error f, rfl, Or.inl ⟨f, rfl, by simpa using ho, rfl⟩⟩

/-! ## The whole provisioning -/

/-- What follows the wait for a node, by how the wait ended. -/
inductive Closes (p : Provisioner) (handle : Handle) :
    List Happening → List Happening → Ending (Poll.Outcome Float) → Ending Provisioned → Prop
  /-- The last read of the wait shows that the node is ready. -/
  | handedOver {before closing : List Happening} {v : Value} {o : Poll.Outcome Float}
      {e : Ending Provisioned} (hv : p.IsReady v) (ho : o.ready = true)
      (hover : p.HandedOver handle.id o closing e) :
      Closes p handle (before ++ [.called (.get handle.id) (.ok v)]) closing (.returned o) e
  /-- The wait timed out. -/
  | takenBack {waited closing : List Happening} {o : Poll.Outcome Float} {e : Ending Provisioned}
      (ho : o.ready = false)
      (hback : TakenBack handle.id (lastRead handle.status waited) closing e) :
      Closes p handle waited closing (.returned o) e
  /-- A fault ended the wait. -/
  | raised {waited : List Happening} {f : Fault} : Closes p handle waited [] (.raised f) (.raised f)
  /-- The wait was still going on. -/
  | unfinished {waited : List Happening} : Closes p handle waited [] .unfinished .unfinished

/-- A provisioning whose node was not created. -/
lemma provision_of_refused {req : ProvisionRequest} {w w₁ : World σ} {f : Fault}
    (h : p.launch env req w = (.raised f, w₁)) (horizon : Nat) :
    p.provision env horizon req w = (.raised f, w₁) :=
  Flow.bind_of_raised h

/-- **A provisioning whose node was created** waits for it, and then does what the end of the wait
calls for.

**Proof sketch.** The wait is described by `meets_watch`. If it ended as ready, the node is handed
over; if it ended late, the node is given up; and if it failed, nothing follows. -/
lemma provision_of_launched (hbounds : ¬ p.timeout ≤ 0 ∧ ¬ p.period ≤ 0) (horizon : Nat)
    {req : ProvisionRequest} {w w₁ : World σ} {handle : Handle}
    (hlaunch : p.launch env req w = (.returned handle, w₁)) (hseen : w₁.seen = handle.status) :
    ∃ n waited closing polled w₂,
      World.poll env (p.settings handle.id) (p.readyCheck env handle.id) horizon w₁ =
        (polled, w₂) ∧ w₂.history = w₁.history ++ waited ∧
      waited.filterMap Happening.call? = List.replicate n (.get handle.id) ∧
      (∀ o, polled = .returned o → o.attempts = n) ∧
      (p.provision env horizon req w).2.history = w₁.history ++ (waited ++ closing) ∧
      p.Closes handle waited closing polled (p.provision env horizon req w).1 := by
  rcases hpoll : World.poll env (p.settings handle.id) (p.readyCheck env handle.id) horizon w₁
    with ⟨polled, w₂⟩
  obtain ⟨waited, hwaited, n, hwatched, hended⟩ :=
    meets_watch env handle.id hbounds horizon w₁ rfl
  rw [hpoll] at hwaited hwatched hended
  obtain ⟨w₃, hawait, hhistory, hmind⟩ := awaitReady_of_poll hpoll (boundOf req handle.id)
  have hlast : w₃.mind.seen = lastRead handle.status waited := by
    rw [hmind, hwatched.seen]
    exact congrArg (lastRead · waited) hseen
  have hclosing : ∃ closing, (p.provision env horizon req w).2.history = w₃.history ++ closing ∧
      p.Closes handle waited closing polled (p.provision env horizon req w).1 := by
    unfold provision
    rw [Flow.bind_of_returned hlaunch]
    cases polled with
    | returned o =>
      rw [Flow.bind_of_returned hawait]
      by_cases hready : o.ready = true
      · rw [if_pos hready]
        obtain ⟨closing, hc, hover⟩ :=
          meets_handOver p env o (boundOf req handle.id) w₃ rfl
        obtain ⟨before, v, rfl, hv⟩ := (hended o rfl).2 hready
        exact ⟨closing, hc, Closes.handedOver hv hready hover⟩
      · rw [if_neg hready]
        obtain ⟨closing, hc, hback⟩ :=
          meets_giveUp p env o (boundOf req handle.id) w₃ rfl
        rw [hlast] at hback
        exact ⟨closing, hc, Closes.takenBack (by simpa using hready) hback⟩
    | raised f =>
      rw [Flow.bind_of_raised hawait]
      exact ⟨[], (List.append_nil _).symm, Closes.raised⟩
    | unfinished =>
      rw [Flow.bind_of_unfinished hawait]
      exact ⟨[], (List.append_nil _).symm, Closes.unfinished⟩
  obtain ⟨closing, hc, hcloses⟩ := hclosing
  refine ⟨n, waited, closing, polled, w₂, rfl, hwaited, hwatched.calls,
    fun o ho => (hended o ho).1, ?_, hcloses⟩
  rw [hc, hhistory, hwaited, List.append_assoc]

namespace Closes

variable {handle : Handle} {waited closing : List Happening}
  {polled : Ending (Poll.Outcome Float)} {e : Ending Provisioned}

/-- What follows the wait is nothing, one more read, or the deletion.

**Proof sketch.** The cases are those of how a provisioning closes. -/
lemma calls (H : p.Closes handle waited closing polled e) :
    closing = [] ∨ (∃ out, closing = [.called (.get handle.id) out]) ∨
      ∃ out, closing = [.called (.delete handle.id) out] := by
  cases H with
  | handedOver hv ho hover =>
    obtain ⟨-, out, rfl, -⟩ := hover
    exact Or.inr (Or.inl ⟨out, rfl⟩)
  | takenBack ho hback =>
    obtain ⟨out, rfl, -⟩ := hback
    exact Or.inr (Or.inr ⟨out, rfl⟩)
  | raised => exact Or.inl rfl
  | unfinished => exact Or.inl rfl

/-- The node is deleted if and only if the wait was over before it got ready. -/
lemma delete_iff (H : p.Closes handle waited closing polled e) :
    (∃ out, closing = [.called (.delete handle.id) out]) ↔
      ∃ o, polled = .returned o ∧ o.ready = false := by
  cases H with
  | handedOver hv ho hover =>
    obtain ⟨-, out, rfl, -⟩ := hover
    simp [ho]
  | takenBack ho hback =>
    obtain ⟨out, rfl, -⟩ := hback
    simp [ho]
  | raised => simp
  | unfinished => simp

/-- If the node is deleted at the end, then it was taken back with the state that was read last. -/
lemma takenBack_of_delete (H : p.Closes handle waited closing polled e)
    (hdelete : ∃ out, closing = [.called (.delete handle.id) out]) :
    TakenBack handle.id (lastRead handle.status waited) closing e := by
  obtain ⟨o, rfl, ho⟩ := H.delete_iff.1 hdelete
  cases H with
  | handedOver hv ho' hover =>
    rw [ho'] at ho
    exact absurd ho.symm Bool.false_ne_true
  | takenBack ho' hback => exact hback

/-- A fault that ends the wait stays what it is. -/
lemma of_raised {f : Fault} (H : p.Closes handle waited closing (.raised f) e) :
    closing = [] ∧ e = .raised f := by
  cases H
  exact ⟨rfl, rfl⟩

/-- A wait that is not finished has no closing. -/
lemma of_unfinished (H : p.Closes handle waited closing .unfinished e) :
    closing = [] ∧ e = .unfinished := by
  cases H
  exact ⟨rfl, rfl⟩

/-- A node that can be used got ready, was read once more, and had its login credentials then.

**Proof sketch.** Only to hand over a node has a result. The wait ended as ready then, with a read
that shows it, and the login was read from one more state. -/
lemma of_returned (H : p.Closes handle waited closing polled e) {r : Provisioned}
    (hr : e = .returned r) :
    ∃ o before v u, polled = .returned o ∧
      waited = before ++ [.called (.get handle.id) (.ok v)] ∧ p.IsReady v ∧
      closing = [.called (.get handle.id) (.ok u)] ∧ u.isNull = false ∧
      p.login? u = .ok (some r.login) ∧ r = ⟨⟨handle.id, u⟩, r.login, o.elapsed, .ready⟩ := by
  cases H with
  | handedOver hv ho hover =>
    obtain ⟨-, out, rfl, hiff⟩ := hover
    obtain ⟨u, rfl, hu, hlogin, hlast⟩ := (hiff r).1 hr
    exact ⟨_, _, _, u, rfl, rfl, hv, rfl, hu, hlogin, hlast⟩
  | takenBack ho hback =>
    obtain ⟨out, -, ⟨f, -, -, hf⟩ | ⟨-, f, -, hf, -⟩⟩ := hback
    · exact absurd (hr.symm.trans hf) (by simp)
    · exact absurd (hr.symm.trans hf) (by simp)
  | raised => exact absurd hr (by simp)
  | unfinished => exact absurd hr (by simp)

/-- A node whose final read finds it, together with its login credentials, can be used.

**Proof sketch.** The cases are those of how a provisioning closes. Only the first of them has a
final look, and it returns as the look has found the login. -/
lemma exists_returned (H : p.Closes handle waited closing polled e) {u : Value} {login : Login}
    (hclosing : closing = [.called (.get handle.id) (.ok u)]) (hu : u.isNull = false)
    (hlogin : p.login? u = .ok (some login)) : ∃ r, e = .returned r := by
  cases H with
  | @handedOver _ _ _ o _ hv ho hover =>
    obtain ⟨-, out, hout, hiff⟩ := hover
    obtain rfl : out = .ok u := by simpa [hout] using hclosing
    exact ⟨⟨⟨handle.id, u⟩, login, o.elapsed, .ready⟩, (hiff _).2 ⟨u, rfl, hu, hlogin, rfl⟩⟩
  | takenBack ho hback =>
    obtain ⟨out, hout, -⟩ := hback
    exact absurd (hout.symm.trans hclosing) (by simp)
  | raised => exact absurd hclosing (by simp)
  | unfinished => exact absurd hclosing (by simp)

end Closes

/-- **The calls of a provisioning and its outcome.** The history of a provisioning grows by the call
that creates the node, by the reads and pauses of the wait, and then by nothing, by one more read,
or by the deletion. If the node is not created, nothing else is called, and a fault that can be
handled and is not of a lifecycle flow becomes a failed creation. The wait makes as many reads as it
makes attempts; if a fault ends it, nothing is called after it, and the fault stays what it is. The
node is deleted if and only if the wait timed out, and the provisioning then raises a fault that
carries what the last answered read found and, unless the deletion was accepted, why the node is
still there. It returns a node if and only if the last read of the wait showed it ready, the final
read found it, and the login credentials were taken from what this read found.

**Proof sketch.** Launching meets the first part. If the node is created, the wait meets the second
part, and the third one is met by what the ending of the wait leads to. -/
theorem provision_outcome (p : Provisioner) (env : Surroundings σ) (htimeout : 0.5 < p.timeout)
    (hperiod : 0 < p.period) (horizon : Nat) (req : ProvisionRequest) (w : World σ) :
    ∃ created rest, (p.provision env horizon req w).2.history =
        w.history ++ .called (.create req) created :: rest ∧
      -- the node is not created
      (∀ f, created = .error f → rest = [] ∧
        (f.isLifecycle = true ∨ f.isOrdinary = false →
          (p.provision env horizon req w).1 = .raised f) ∧
        (f.isLifecycle = false → f.isOrdinary = true →
          ∃ g, (p.provision env horizon req w).1 = .raised (.causedBy g f) ∧
            g.kind = .createFailed)) ∧
      ∀ handle, created = .ok handle → ∃ n waited closing polled,
        rest = waited ++ closing ∧
        -- the wait
        (∃ w₁ w₂, p.launch env req w = (.returned handle, w₁) ∧
          World.poll env (p.settings handle.id) (p.readyCheck env handle.id) horizon w₁ =
            (polled, w₂) ∧ w₂.history = w₁.history ++ waited) ∧
        waited.filterMap Happening.call? = List.replicate n (.get handle.id) ∧
        (∀ o, polled = .returned o → o.attempts = n) ∧
        -- what follows it
        (closing = [] ∨ (∃ out, closing = [.called (.get handle.id) out]) ∨
          ∃ out, closing = [.called (.delete handle.id) out]) ∧
        (∀ f, polled = .raised f → closing = [] ∧ (p.provision env horizon req w).1 = .raised f) ∧
        (polled = .unfinished → closing = [] ∧
          (p.provision env horizon req w).1 = .unfinished) ∧
        -- the node is deleted
        ((∃ out, closing = [.called (.delete handle.id) out]) ↔
          ∃ o, polled = .returned o ∧ o.ready = false) ∧
        (∀ out, closing = [.called (.delete handle.id) out] →
          (∀ f, out = .error f → f.isOrdinary = false →
            (p.provision env horizon req w).1 = .raised f) ∧
          ((∀ f, out = .error f → f.isOrdinary = true) → ∃ f context,
            (p.provision env horizon req w).1 = .raised f ∧ f.kind = .readinessTimeout ∧
            (f.cleanup? = none ↔ ∃ accepted, out = .ok accepted ∧ accepted.isTruthy = true) ∧
            f.context? = some context ∧
            context.lastState = lastRead handle.status waited)) ∧
        -- the node can be used
        ((∃ r, (p.provision env horizon req w).1 = .returned r) ↔
          ∃ before v u login, waited = before ++ [.called (.get handle.id) (.ok v)] ∧
            p.IsReady v ∧ closing = [.called (.get handle.id) (.ok u)] ∧ u.isNull = false ∧
            p.login? u = .ok (some login)) ∧
        ∀ r, (p.provision env horizon req w).1 = .returned r → ∃ o u, polled = .returned o ∧
          closing = [.called (.get handle.id) (.ok u)] ∧ p.login? u = .ok (some r.login) ∧
          r = ⟨⟨handle.id, u⟩, r.login, o.elapsed, .ready⟩ := by
  have hbounds : ¬ p.timeout ≤ 0 ∧ ¬ p.period ≤ 0 := by
    have hhalf : (0 : Float) ≤ 0.5 := by decide
    exact ⟨fun h => Binary.not_le_of_lt htimeout (IsTrans.trans (r := (· ≤ ·)) _ _ _ h hhalf),
      Binary.not_le_of_lt hperiod⟩
  obtain ⟨tr, htr, created, rfl, hcreated⟩ := meets_launch p env req w rfl
  rcases hlaunch : p.launch env req w with ⟨e, w₁⟩
  rw [hlaunch] at htr hcreated
  refine ⟨created, ?_⟩
  cases created with
  | error f =>
    obtain ⟨rfl, -⟩ := hcreated
    rw [provision_of_refused hlaunch horizon]
    refine ⟨[], htr, ?_, by simp⟩
    rintro g ⟨⟩
    refine ⟨rfl, fun hf => ?_, fun hl ho => ?_⟩
    · rw [refusal, if_pos (by simpa using hf)]
    · rw [refusal, if_neg (by simp [hl, ho])]
      exact ⟨_, rfl, rfl⟩
  | ok handle =>
    obtain ⟨rfl, hmind⟩ := hcreated
    obtain ⟨n, waited, closing, polled, w₂, hpoll, hwaited, hcalls, hattempts, hhistory, H⟩ :=
      provision_of_launched hbounds horizon hlaunch (congrArg World.Mind.seen hmind)
    refine ⟨waited ++ closing, ?_, by simp, ?_⟩
    · rw [hhistory, htr, List.append_assoc]
      rfl
    rintro handle' ⟨⟩
    refine ⟨n, waited, closing, polled, rfl, ⟨w₁, w₂, rfl, hpoll, hwaited⟩, hcalls, hattempts,
      H.calls, ?_, ?_, H.delete_iff, ?_, ⟨?_, ?_⟩, ?_⟩
    · rintro f rfl
      exact H.of_raised
    · rintro rfl
      exact H.of_unfinished
    · intro out hout
      obtain ⟨out', hout', hback⟩ := H.takenBack_of_delete ⟨out, hout⟩
      obtain rfl : out = out' := by simpa using hout.symm.trans hout'
      refine ⟨fun f hf ho => ?_, fun hordinary => ?_⟩
      · obtain ⟨g, hg, -, he⟩ | ⟨hordinary, -⟩ := hback
        · obtain rfl : f = g := by simpa [hf] using hg
          exact he
        · exact absurd (hordinary f hf) (by simp [ho])
      · obtain ⟨g, hg, ho, -⟩ | ⟨-, g, context, he, hkind, hcontext, hlast, hcleanup⟩ := hback
        · exact absurd (hordinary g hg) (by simp [ho])
        · exact ⟨g, context, he, hkind, hcleanup, hcontext, hlast⟩
    · rintro ⟨r, hr⟩
      obtain ⟨o, before, v, u, -, hbefore, hv, hclosing, hu, hlogin, -⟩ := H.of_returned hr
      exact ⟨before, v, u, r.login, hbefore, hv, hclosing, hu, hlogin⟩
    · rintro ⟨-, -, u, login, -, -, hclosing, hu, hlogin⟩
      exact H.exists_returned hclosing hu hlogin
    · intro r hr
      obtain ⟨o, -, -, u, hpolled, -, -, hclosing, -, hlogin, hlast⟩ := H.of_returned hr
      exact ⟨o, u, hpolled, hclosing, hlogin, hlast⟩

/-- A node that is ready once its state is zero. -/
def counting : Provisioner where
  isReady v := .ok (v.agrees (.int 0))
  login? v := .ok (some { user := v })
  timeout := 5.0
  transient := [.timedOut]

/-- A node that is slow to get ready, that cannot be read a second time, and that cannot be deleted.
-/
def stuck : Script where
  created := [⟨none, .ok { id := "node-1" }⟩]
  states := [⟨some 3.0, .ok (.int 1)⟩, ⟨some 3.0, .error (.plain .timedOut none)⟩]
  deleted := [⟨none, .ok (.bool false)⟩]

/-- A node that gets ready. -/
def eager : Script where
  created := [⟨none, .ok { id := "node-1" }⟩]
  states := [⟨none, .ok .null⟩, ⟨none, .ok (.int 0)⟩]

/-- What is asked for. -/
def asked : ProvisionRequest := ⟨.null, "group", "node"⟩

/-- The provisioning of such a node. -/
def counted (script : Script) : Ending Provisioned × World Script :=
  counting.provision Script.surroundings 5 asked { backend := script }

/-- A node that gets ready is returned after two reads that show it. One that does not is deleted,
and the fault says that this was not accepted.

**Proof sketch.** The theorem is applied to two runs. Of the first one it is computed that it
returns, and of the second one that it deletes the node, that this is not accepted, and that all
faults can be handled. -/
theorem provision_outcome_counting :
    0.5 < counting.timeout ∧ 0 < counting.period ∧
      (∃ handle before v u r, (counted eager).2.history = .called (.create asked) (.ok handle) ::
          before ++ [.called (.get handle.id) (.ok v), .called (.get handle.id) (.ok u)] ∧
        counting.IsReady v ∧ (counted eager).1 = .returned r ∧ r.handle = ⟨handle.id, u⟩) ∧
      ∃ f, (counted stuck).1 = .raised f ∧ f.kind = .readinessTimeout ∧ f.cleanup? ≠ none := by
  have htimeout : 0.5 < counting.timeout := by decide
  have hperiod : 0 < counting.period := by decide
  refine ⟨htimeout, hperiod, ?_, ?_⟩
  · have hreturned : (counted eager).1.result?.isSome = true := by decide +kernel
    obtain ⟨r, hresult⟩ := Option.isSome_iff_exists.1 hreturned
    have hr : (counted eager).1 = .returned r := Ending.eq_returned_of_result? hresult
    obtain ⟨created, rest, hhistory, hrefused, hcreated⟩ := provision_outcome counting
      Script.surroundings htimeout hperiod 5 asked { backend := eager }
    cases created with
    | error f =>
      obtain ⟨-, hkept, hwrapped⟩ := hrefused f rfl
      by_cases hf : f.isLifecycle = true ∨ f.isOrdinary = false
      · exact absurd (hr.symm.trans (hkept hf)) (by simp)
      · obtain ⟨g, hg, -⟩ := hwrapped (by simpa using (not_or.1 hf).1)
          (by simpa using (not_or.1 hf).2)
        exact absurd (hr.symm.trans hg) (by simp)
    | ok handle =>
      obtain ⟨n, waited, closing, polled, rfl, -, -, -, -, -, -, -, -, hsuccess, hlast⟩ :=
        hcreated handle rfl
      obtain ⟨before, v, -, -, rfl, hv, -⟩ := hsuccess.1 ⟨r, hr⟩
      obtain ⟨o, u, -, rfl, -, hlast⟩ := hlast r hr
      refine ⟨handle, before, v, u, r, ?_, hv, hr, by rw [hlast]⟩
      exact hhistory.trans (by simp)
  · have hdeleted : (counted stuck).2.history.any Happening.isDelete = true := by decide +kernel
    have hrejected : (counted stuck).2.history.any Happening.isAccepted = false := by
      decide +kernel
    have hmild : (counted stuck).2.history.all (fun h => h.fault?.all Fault.isOrdinary) = true := by
      decide +kernel
    obtain ⟨created, rest, hhistory, hrefused, hcreated⟩ := provision_outcome counting
      Script.surroundings htimeout hperiod 5 asked { backend := stuck }
    replace hhistory : (counted stuck).2.history = .called (.create asked) created :: rest :=
      hhistory
    rw [hhistory] at hdeleted hrejected hmild
    cases created with
    | error f =>
      obtain ⟨rfl, -⟩ := hrefused f rfl
      exact absurd hdeleted (by simp [Happening.isDelete])
    | ok handle =>
      obtain ⟨n, waited, closing, polled, rfl, -, hcalls, -, hclosing, -, -, -, hback, -⟩ :=
        hcreated handle rfl
      have hwaited : waited.any Happening.isDelete = false := by
        refine List.any_eq_false.2 fun h hh hd => ?_
        obtain ⟨c, hc⟩ := Happening.call?_of_isDelete hd
        have hmem := hcalls ▸ List.mem_filterMap.2 ⟨h, hh, hc⟩
        simp at hmem
      rcases hclosing with rfl | ⟨out, rfl⟩ | ⟨out, rfl⟩
      · exact absurd hdeleted (by simp [hwaited, Happening.isDelete])
      · exact absurd hdeleted (by simp [hwaited, Happening.isDelete])
      · obtain ⟨-, hraised⟩ := hback out rfl
        have hordinary (f : Fault) (hf : out = .error f) : f.isOrdinary = true := by
          have hall := List.all_eq_true.1 hmild (.called (.delete handle.id) out) (by simp)
          rw [hf] at hall
          exact hall
        obtain ⟨f, -, hf, hkind, hcleanup, -⟩ := hraised hordinary
        refine ⟨f, hf, hkind, fun hnone => ?_⟩
        obtain ⟨a, rfl, ha⟩ := hcleanup.1 hnone
        have hno := List.any_eq_false.1 hrejected (.called (.delete handle.id) (.ok a)) (by simp)
        exact absurd ha hno

end NodeKeeper.Provisioner
