import NodeKeeper.Node.Provision
import NodeKeeper.Node.Teardown
import NodeKeeper.Proofs.Flow.Known

/-!
# Provisioning and teardown in known surroundings

What the parts of the two flows go through when the surroundings answer every call.

## Main definitions

* `Provisioner.overdue` — the fault of a node that did not get ready in time and was taken back.

## Main results

* `Provisioner.goes_provision_of_ready`, `Provisioner.goes_provision_of_late` — a provisioning goes
  as its wait goes.
* `Dismantler.goes_destroy_of_absent`, `Dismantler.goes_destroy_of_drained` — a teardown of a node
  that is not there, and of one that has drained at the first look.
-/

namespace NodeKeeper

open NodeKeeper.Flow (Goes)

variable {σ : Type} {env : Surroundings σ} {s s₁ : World.Scene σ} {tr : List Happening}
  {horizon : Nat} {id : String} {bound : List (String × Value)} {v : Value} {b : σ}

/-! ## Provisioning -/

namespace Provisioner

variable {p : Provisioner} {req : ProvisionRequest} {handle : Handle} {o : Poll.Outcome Float}

/-- A launch whose answer is known goes so: the node is created, and its handle returned. -/
lemma goes_launch (h : env.answer (.create req) s.backend = (⟨none, .ok handle⟩, b)) :
    (p.launch env req).Goes s [.called (.create req) (.ok handle)] (.returned handle)
      { s with backend := b, seen := handle.status } := by
  have hcreate (named : List (String × Value)) :
      (create env req named).Goes s [.called (.create req) (.ok handle)] (.returned handle)
        { s with backend := b } := by
    unfold create
    exact .attempt_bind h (.pure handle)
  unfold launch
  exact .note_bind (.bind (hcreate _) (.see_bind (.note_bind (.note_bind (.pure handle)))))

/-- A check whether a node that is there is ready. -/
lemma goes_readyCheck {ready : Bool} (h : env.answer (.get id) s.backend = (⟨none, .ok v⟩, b))
    (hv : v.isNull = false) (hready : p.isReady v = .ok ready) :
    (p.readyCheck env id).Goes s [.called (.get id) (.ok v)] (.returned ready)
      { s with backend := b, seen := v } := by
  unfold readyCheck
  refine .perform_bind h (.see_bind ?_)
  rw [hv, if_neg Bool.false_ne_true]
  exact .ofExcept hready

/-- The wait for a node to be ready goes as its polling does. -/
lemma goes_awaitReady
    (h : (World.poll env (p.settings id) (p.readyCheck env id) horizon).Goes s tr (.returned o) s₁) :
    (p.awaitReady env horizon id bound).Goes s tr (.returned o) s₁ := by
  unfold awaitReady
  rw [← List.append_nil tr]
  exact .bind (.attempt h) (.pure o)

/-- A node that reported itself ready is handed over with the login of one more look.

**Proof sketch.** The final look is one call, and finds the login at once. -/
lemma goes_handOver {login : Login} (h : env.answer (.get id) s.backend = (⟨none, .ok v⟩, b))
    (hv : v.isNull = false) (hlogin : p.login? v = .ok (some login)) :
    (p.handOver env id o bound).Goes s [.called (.get id) (.ok v)]
      (.returned ⟨⟨id, v⟩, login, o.elapsed, .ready⟩) { s with backend := b, seen := v } := by
  have hfinal : (p.finalLogin env id o.elapsed).Goes s [.called (.get id) (.ok v)]
      (.returned login) { s with backend := b, seen := v } := by
    unfold finalLogin
    refine .perform_bind h ?_
    rw [hv, if_neg Bool.false_ne_true]
    refine .see_bind ?_
    rw [hlogin]
    exact .pure login
  unfold handOver
  exact .bind hfinal (.note_bind (.lastSeen_bind (.pure _)))

/-- The fault of a node that did not get ready in time and was taken back. -/
def overdue (p : Provisioner) (id : String) (elapsed : Float) (seen : Value) : Fault :=
  .lifecycle .readinessTimeout
    ("Resource is being destroyed as it had no login details after " ++
      s!"{Decimal.fixed 1 p.timeout}s; consider increasing the login details timeout")
    { resource := .text id, elapsed := some elapsed, timeout := some p.timeout, lastState := seen }

/-- A node that did not get ready is taken back by one call.

**Proof sketch.** The deletion is accepted, so that nothing is added to the fault. -/
lemma goes_giveUp (h : env.answer (.delete id) s.backend = (⟨none, .ok v⟩, b))
    (hv : v.isTruthy = true) :
    (p.giveUp env id o bound).Goes s [.called (.delete id) (.ok v)]
      (.raised (p.overdue id o.elapsed s.seen)) { s with backend := b } := by
  have htaken : (takeBack env id bound).Goes s [.called (.delete id) (.ok v)] (.returned none)
      { s with backend := b } := by
    unfold takeBack
    refine .note_bind (.attempt_bind h ?_)
    dsimp only
    rw [if_pos hv]
    exact .note_bind (.pure none)
  unfold giveUp
  exact .note_bind (.bind htaken (.lastSeen_bind (.raise _)))

/-- A provisioning whose wait found the node ready.

**Proof sketch.** The launch, the wait and the final look go one after the other. -/
lemma goes_provision_of_ready {login : Login} {waited : List Happening} {b' : σ}
    (hcreate : env.answer (.create req) s.backend = (⟨none, .ok handle⟩, b))
    (hwait : (World.poll env (p.settings handle.id) (p.readyCheck env handle.id) horizon).Goes
      { s with backend := b, seen := handle.status } waited (.returned o) s₁)
    (ho : o.ready = true)
    (hget : env.answer (.get handle.id) s₁.backend = (⟨none, .ok v⟩, b')) (hv : v.isNull = false)
    (hlogin : p.login? v = .ok (some login)) :
    (p.provision env horizon req).Goes s
      (.called (.create req) (.ok handle) :: (waited ++ [.called (.get handle.id) (.ok v)]))
      (.returned ⟨⟨handle.id, v⟩, login, o.elapsed, .ready⟩)
      { s₁ with backend := b', seen := v } := by
  unfold provision
  refine .bind (goes_launch hcreate) (.bind (goes_awaitReady hwait) ?_)
  rw [if_pos ho]
  exact goes_handOver hget hv hlogin

/-- A provisioning whose time was up before the node was ready.

**Proof sketch.** The launch, the wait and the deletion go one after the other. -/
lemma goes_provision_of_late {waited : List Happening} {b' : σ}
    (hcreate : env.answer (.create req) s.backend = (⟨none, .ok handle⟩, b))
    (hwait : (World.poll env (p.settings handle.id) (p.readyCheck env handle.id) horizon).Goes
      { s with backend := b, seen := handle.status } waited (.returned o) s₁)
    (ho : o.ready = false)
    (hdelete : env.answer (.delete handle.id) s₁.backend = (⟨none, .ok v⟩, b'))
    (hv : v.isTruthy = true) :
    (p.provision env horizon req).Goes s
      (.called (.create req) (.ok handle) :: (waited ++ [.called (.delete handle.id) (.ok v)]))
      (.raised (p.overdue handle.id o.elapsed s₁.seen)) { s₁ with backend := b' } := by
  unfold provision
  refine .bind (goes_launch hcreate) (.bind (goes_awaitReady hwait) ?_)
  rw [ho, if_neg Bool.false_ne_true]
  exact goes_giveUp hdelete hv

end Provisioner

/-! ## Teardown -/

namespace Dismantler

variable {d : Dismantler} {source : Option (OrphanSource (World σ))}

/-- A teardown of a node that is not there looks once. -/
lemma goes_destroy_of_absent (h : env.answer (.get id) s.backend = (⟨none, .ok .null⟩, b)) :
    (d.destroy env source horizon id).Goes s [.called (.get id) (.ok .null)]
      (.returned { id, deleted := false, elapsed := s.now - s.now }) { s with backend := b } := by
  unfold destroy
  exact .clock_bind (.perform_bind h (.note_bind (.clock_bind (.pure _))))

/-- A wait for a node that has drained at the first look ends with it.

**Proof sketch.** The wait has settings without a flaw, and its first check passes, as there is
nothing pending. So it takes this one read, and no pause. -/
lemma goes_drain {count : Value} (hbounds : ¬ d.timeout ≤ 0 ∧ ¬ d.period ≤ 0)
    (h : env.answer (.get id) s.backend = (⟨none, .ok v⟩, b)) (hv : v.isNull = false)
    (hpending : d.pending v = .ok count) (hcount : count.agrees (.int 0) = true) :
    (d.drain env horizon id bound).Goes s [.called (.get id) (.ok v)] (.returned ())
      { s with backend := b, seen := v } := by
  have hcheck : (d.drainedCheck env id).Goes s [.called (.get id) (.ok v)] (.returned true)
      { s with backend := b, seen := v } := by
    unfold drainedCheck
    refine .perform_bind h ?_
    rw [hv, if_neg Bool.false_ne_true]
    refine .see_bind (.ofExcept_bind hpending ?_)
    rw [hcount]
    exact .pure true
  have hwait : (World.poll env ⟨d.period, d.timeout, d.transient, s!"drain:{id}"⟩
      (d.drainedCheck env id) horizon).Goes s [.called (.get id) (.ok v)]
      (.returned ⟨true, 1, s.now - s.now⟩) { s with backend := b, seen := v } :=
    .poll hbounds (.passed hcheck)
  unfold drain
  exact .note_bind (.bind hwait (.pure ()))

/-- A delete call that is accepted, and a node that is gone afterwards.

**Proof sketch.** The deletion is accepted, and the look after it finds the node gone. -/
lemma goes_delete {started : Float} {accepted : Value} {b' : σ}
    (hdelete : env.answer (.delete id) s.backend = (⟨none, .ok accepted⟩, b))
    (haccepted : accepted.isTruthy = true)
    (hget : env.answer (.get id) b = (⟨none, .ok v⟩, b')) (hgone : d.isGone v = .ok true) :
    (d.delete env id started bound).Goes s
      [.called (.delete id) (.ok accepted), .called (.get id) (.ok v)] (.returned ())
      { s with backend := b' } := by
  unfold delete
  refine .note_bind (.attempt_bind hdelete ?_)
  dsimp only
  rw [haccepted, Bool.not_true, if_neg Bool.false_ne_true]
  exact .perform_bind hget (.ofExcept_bind hgone (.note_bind (.pure ())))

/-- A teardown without secondary resources of a node that has drained at the first look of the
wait.

**Proof sketch.** The phases go one after the other: the first read, the drain with one read, and
the deletion with one read behind it. Without a source there is no cleanup. -/
lemma goes_destroy_of_drained {name count v₁ accepted v₂ : Value} {b₁ b₂ b₃ : σ}
    (hbounds : ¬ d.timeout ≤ 0 ∧ ¬ d.period ≤ 0)
    (hget : env.answer (.get id) s.backend = (⟨none, .ok v⟩, b)) (hv : v.isNull = false)
    (hname : d.nameOf v = .ok name)
    (hget₁ : env.answer (.get id) b = (⟨none, .ok v₁⟩, b₁)) (hv₁ : v₁.isNull = false)
    (hpending : d.pending v₁ = .ok count) (hcount : count.agrees (.int 0) = true)
    (hdelete : env.answer (.delete id) b₁ = (⟨none, .ok accepted⟩, b₂))
    (haccepted : accepted.isTruthy = true)
    (hget₂ : env.answer (.get id) b₂ = (⟨none, .ok v₂⟩, b₃)) (hgone : d.isGone v₂ = .ok true) :
    (d.destroy env none horizon id).Goes s
      [.called (.get id) (.ok v), .called (.get id) (.ok v₁), .called (.delete id) (.ok accepted),
        .called (.get id) (.ok v₂)]
      (.returned { id, deleted := true, elapsed := s.now - s.now })
      { s with backend := b₃, seen := v₁ } := by
  unfold destroy
  refine .clock_bind (.perform_bind hget ?_)
  rw [hv, if_neg Bool.false_ne_true]
  refine .ofExcept_bind hname (.see_bind ?_)
  refine .bind (goes_drain hbounds hget₁ hv₁ hpending hcount) ?_
  refine .bind (goes_delete hdelete haccepted hget₂ hgone) ?_
  exact .bind_quiet (.pure _) (.clock_bind (.note_bind (.pure _)))

end Dismantler

end NodeKeeper
