import NodeKeeper.Proofs.Node.Teardown
import NodeKeeper.Provider.Flat

/-!
# Nodes that do not drain

A node whose operations are still pending when the time is up is not deleted, and the teardown ends
with a fault that names the last state of the node that was read. Before it is raised, the pending
operations of that state are counted once more, for the log. During the wait a count that fails may
have been forgiven; this one is not, and its fault takes the place of the other.

## Main definitions

* `Dismantler.drainSettings`, `Dismantler.drainStart` — how a node is waited for, and from where on.
* `Dismantler.Look` — what one look at a node that drains comes to.
* `Dismantler.Pending` — what holds of a wait as long as the node has not drained.

## Main results

* `Dismantler.meets_drainPoll` — a wait that times out has read the node and paused, and the
  operations of the last state could be counted unless that was forgiven or never tried.
* `Dismantler.destroy_undrained` — how a teardown ends whose node does not drain.
* `Dismantler.destroy_undrained_masked` — a node without a count of its operations.
-/

namespace NodeKeeper.Dismantler

open NodeKeeper.Flow (Meets)

variable {σ : Type} {d : Dismantler} {env : Surroundings σ} {id : String} {m : World.Mind}

/-- How a node is waited for until it has drained. -/
def drainSettings (d : Dismantler) (id : String) : Poll.Settings Float :=
  ⟨d.period, d.timeout, d.transient, s!"drain:{id}"⟩

/-- The world in which the wait starts, once the node was read for the first time. -/
def drainStart (d : Dismantler) (id : String) (v : Value) (w : World σ) : World σ :=
  { w with seen := v }.record ⟨.debug, "teardown.draining",
    [("resource_id", .text id), ("state", .text TeardownStage.draining.word),
      ("timeout", .float d.timeout)]⟩

/-! ## One look -/

/-- What one look at a node that drains comes to. A state that is read is the last one seen, even if
its operations cannot be counted. -/
inductive Look (d : Dismantler) (id : String) (m : World.Mind) : Flow.Condition Bool
  | unread {f : Fault} : Look d id m [.called (.get id) (.error f)] (.raised f) m
  | gone {v : Value} (hv : v.isNull = true) :
      Look d id m [.called (.get id) (.ok v)] (.returned true) m
  | counted {v n : Value} (hv : v.isNull = false) (hn : d.pending v = .ok n) :
      Look d id m [.called (.get id) (.ok v)] (.returned (n.agrees (.int 0))) { m with seen := v }
  | uncounted {v : Value} {f : Fault} (hv : v.isNull = false) (hf : d.pending v = .error f) :
      Look d id m [.called (.get id) (.ok v)] (.raised f) { m with seen := v }

/-- A look at whether the node has drained is one read of its state. It tells whether operations are
pending, or fails. -/
lemma meets_look : (d.drainedCheck env id).Meets m (Look d id m) := by
  unfold drainedCheck
  refine Meets.perform_bind (fun v => ?_) fun f => .unread
  split
  · next hv => exact Meets.pure (.gone hv)
  · next hv =>
    replace hv : v.isNull = false := Bool.eq_false_iff.2 hv
    refine Meets.see_bind (Meets.ofExcept_bind (fun n hn => Meets.pure ?_) fun f hf => ?_)
    · exact .counted hv hn
    · exact .uncounted hv hf

/-! ## The wait -/

/-- What holds of a wait as long as the node has not drained: it was read, and there were pauses,
and every state that was read is there. If the operations of the last one cannot be counted, then
either this was forgiven or no state was read at all. -/
structure Pending (d : Dismantler) (id : String) (m : World.Mind) (tr : List Happening)
    (m' : World.Mind) : Prop where
  isWait : ∀ h ∈ tr, h.isWait id = true
  cache : m'.cache = m.cache
  seen : m'.seen = lastRead m.seen tr
  present : ∀ v ∈ tr.filterMap Happening.read?, v.isNull = false
  excused : ∀ f, d.pending m'.seen = .error f →
    tr.filterMap Happening.read? = [] ∨ (d.drainSettings id).forgives f = true

namespace Pending

variable {tr : List Happening} {m' : World.Mind}

/-- Before the first look, nothing is known of the node beside what the flow had in mind. -/
lemma nil (d : Dismantler) (id : String) (m : World.Mind) : Pending d id m [] m where
  isWait := by simp
  cache := rfl
  seen := rfl
  present := by simp
  excused _ _ := Or.inl rfl

/-- A pause, or a read that was not answered. -/
lemma append_single (H : Pending d id m tr m') {h : Happening} (hw : h.isWait id = true)
    (hn : h.read? = none) : Pending d id m (tr ++ [h]) m' where
  isWait x hx := by
    rcases List.mem_append.1 hx with hx | hx
    · exact H.isWait x hx
    · rwa [List.mem_singleton.1 hx]
  cache := H.cache
  seen := H.seen.trans (lastRead_append_of_none hn).symm
  present := by simpa [hn] using H.present
  excused := by simpa [hn] using H.excused

/-- A read that found the node.

**Proof sketch.** The read is put behind what happened, and its state becomes the last one. That the
operations in it are not counted is excused by assumption. -/
lemma append_read (H : Pending d id m tr m') {v : Value} (hv : v.isNull = false)
    (hcount : ∀ f, d.pending v = .error f → (d.drainSettings id).forgives f = true) :
    Pending d id m (tr ++ [.called (.get id) (.ok v)]) { m' with seen := v } where
  isWait x hx := by
    rcases List.mem_append.1 hx with hx | hx
    · exact H.isWait x hx
    · rw [List.mem_singleton.1 hx]
      simp [Happening.isWait]
  cache := H.cache
  seen := (lastRead_append_of_read rfl).symm
  present u hu := by
    rw [List.filterMap_append] at hu
    rcases List.mem_append.1 hu with hu | hu
    · exact H.present u hu
    · obtain rfl : u = v := by simpa [Happening.read?] using hu
      exact hv
  excused f hf := Or.inr (hcount f hf)

end Pending

/-- The wait keeps what is known of a node that has not drained: each look adds one read, and each
pause adds itself.

**Proof sketch.** A look that found nothing, or no operations pending, ends the wait as ready. Any
other one adds its read to what is known, and so does a look that failed with a fault that is
forgiven. -/
lemma keeps_pending (d : Dismantler) (env : Surroundings σ) (id : String) (m : World.Mind) :
    Poll.Keeps (d.drainSettings id) (d.drainedCheck env id) (fun _ => Pending d id m)
      (fun _ => Pending d id m)
      fun tr e m' => ∀ o, e = .returned o → o.ready = false → Pending d id m tr m' where
  attempt n tr m' H := by
    refine meets_look.mono ?_
    rintro _ _ _ (⟨⟩ | hv | ⟨hv, hn⟩ | ⟨hv, hf⟩)
    · next f =>
      dsimp only
      split
      · exact H.append_single (by simp [Happening.isWait]) rfl
      · simp
    · rintro t o ⟨⟩ ⟨⟩
    · next v n =>
      have H' := H.append_read hv (by simp [hn])
      cases n.agrees (.int 0) with
      | true => rintro t o ⟨⟩ ⟨⟩
      | false => exact H'
    · next v f =>
      dsimp only
      split
      · next hforgiven =>
        refine H.append_read hv fun g hg => ?_
        rwa [← Except.error.inj (hf.symm.trans hg)]
      · simp
  late _ _ _ _ H _ _ _ := H
  cease := by simp
  pause _ _ _ H := H.append_single rfl rfl
  cut := by simp

/-- **A wait for a node that does not drain** reads the node and pauses, and does nothing else. -/
lemma meets_drainPoll (d : Dismantler) (env : Surroundings σ) (horizon : Nat) (id : String)
    (m : World.Mind) :
    (World.poll env (d.drainSettings id) (d.drainedCheck env id) horizon).Meets m
      fun tr e m' => ∀ o, e = .returned o → o.ready = false → Pending d id m tr m' :=
  (keeps_pending d env id m).meets_poll env horizon (Pending.nil d id m) (by simp)

/-! ## The report -/

/-- The fault of a node that does not drain. -/
def undrained (d : Dismantler) (id : String) (elapsed : Float) (state : Value) : Fault :=
  d.faultOf .drainTimeout "Pending operations did not finish; resource was not deleted" id elapsed
    state

/-- The operations are counted once more before the timeout is reported.

**Proof sketch.** As the wait was not ready, the operations of the last state are counted once more.
If that succeeds, the timeout is reported with the state; if it fails, this fault takes its
place. -/
lemma drain_of_poll {horizon : Nat} {w₁ w₂ : World σ} {v : Value} {o : Poll.Outcome Float}
    (hpoll : World.poll env (d.drainSettings id) (d.drainedCheck env id) horizon
      (d.drainStart id v w₁) = (.returned o, w₂)) (ho : o.ready = false) :
    ∃ w₃, d.drain env horizon id [("resource_id", .text id)] { w₁ with seen := v } =
        (.raised (match d.pending w₂.seen with
          | .ok _ => d.undrained id o.elapsed w₂.seen
          | .error f => f), w₃) ∧
      w₃.history = w₂.history ∧ w₃.mind = w₂.mind := by
  have hstart : d.drain env horizon id [("resource_id", .text id)] { w₁ with seen := v } =
      (World.poll env (d.drainSettings id) (d.drainedCheck env id) horizon >>= _)
        (d.drainStart id v w₁) := Flow.note_bind_apply _ _ _
  obtain ⟨ready, n, elapsed⟩ := o
  obtain rfl : ready = false := ho
  rw [hstart, Flow.bind_of_returned hpoll]
  cases hcount : d.pending w₂.seen with
  | ok count => exact ⟨_, Flow.ofExcept_bind_of_ok hcount w₂, rfl, rfl⟩
  | error f =>
    have hfails : (Flow.ofExcept (d.pending w₂.seen) : Flow (World σ) Value) w₂ =
        (.raised f, w₂) := by rw [hcount]; rfl
    exact ⟨w₂, (Flow.bind_of_returned (x := World.lastSeen) rfl).trans (Flow.bind_of_raised hfails),
      rfl, rfl⟩

/-- **A teardown whose node does not drain.** Suppose that the node is read and has a name, and that
the wait until it has drained times out. Then the node was read and there were pauses, and nothing
else happened, so that nothing was deleted; and every state that was read was there. If the
operations of the last one can be counted, the teardown ends with the timeout: it names the node,
the time that the wait took and the time allowed, and that state. Otherwise it ends with the fault
of counting; this can only be if the fault was forgiven during the wait, or if no read of the wait
was answered.

**Proof sketch.** The wait keeps `Pending`, which says all of this about what has happened so far
and about the state that was seen last. The report counts the operations of that state again. -/
theorem destroy_undrained (d : Dismantler) (env : Surroundings σ)
    (source : Option (OrphanSource (World σ))) (horizon : Nat) (id : String) {w w₁ w₂ : World σ}
    {v name : Value} {o : Poll.Outcome Float}
    (hread : World.perform env (.get id) w = (.returned v, w₁)) (hv : v.isNull = false)
    (hname : d.nameOf v = .ok name)
    (hpoll : World.poll env (d.drainSettings id) (d.drainedCheck env id) horizon
      (d.drainStart id v w₁) = (.returned o, w₂)) (ho : o.ready = false) :
    ∃ tr, (d.destroy env source horizon id w).2.history =
        w.history ++ .called (.get id) (.ok v) :: tr ∧
      (∀ h ∈ tr, h.isWait id = true) ∧
      (∀ u ∈ tr.filterMap Happening.read?, u.isNull = false) ∧
      (d.destroy env source horizon id w).2.cache = w.cache ∧
      (∀ n, d.pending (lastRead v tr) = .ok n →
        (d.destroy env source horizon id w).1 =
          .raised (d.undrained id o.elapsed (lastRead v tr))) ∧
      ∀ f, d.pending (lastRead v tr) = .error f →
        (d.destroy env source horizon id w).1 = .raised f ∧
          (tr.filterMap Happening.read? = [] ∨ (d.drainSettings id).forgives f = true) := by
  obtain ⟨w₁', hread', hhistory, -, hmind⟩ := Flow.perform_of_ok (Flow.outcome_of_perform hread)
  obtain rfl : w₁' = w₁ := congrArg Prod.snd (hread'.symm.trans hread)
  obtain ⟨tr, htr, hkept⟩ := d.meets_drainPoll env horizon id _ (d.drainStart id v w₁') rfl
  rw [hpoll] at htr hkept
  have H := hkept o rfl ho
  obtain ⟨w₃, hdrain, hsame, hmind'⟩ := drain_of_poll hpoll ho
  rw [destroy_of_read source horizon hread hv hname, Flow.bind_of_raised hdrain]
  have hseen : w₂.seen = lastRead v tr := H.seen
  refine ⟨tr, ?_, H.isWait, H.present, ?_, fun n hn => ?_, fun f hf => ?_⟩
  · rw [hsame, htr, ← List.singleton_append, ← List.append_assoc, ← hhistory]
    rfl
  · calc w₃.cache = w₂.cache := congrArg World.Mind.cache hmind'
      _ = w₁'.cache := H.cache
      _ = w.cache := congrArg World.Mind.cache hmind
  · rw [hseen, hn]
  · exact ⟨by rw [hseen, hf], H.excused f (by rw [H.seen]; exact hf)⟩

/-- A provider that counts the operations of a node as it states them, and forgives a state that
does not. -/
def patient : Dismantler where
  pending := Flat.pending
  nameOf := Flat.name
  timeout := 2.0
  transient := [.missingKey]

/-- A node with an operation that goes on and on. -/
def busy : Value := .record [("name", .text "web-1a2"), ("pending", .int 1)]

/-- A node that does not state its operations. -/
def silent : Value := .record [("name", .text "web-1a2")]

/-- A node that is always found in one state. -/
def unchanging (state : Value) : World Script := { backend := { states := [⟨none, .ok state⟩] } }

/-- The teardown of such a node. -/
def patiently (state : Value) : Ending Dismantled × World Script :=
  patient.destroy Script.surroundings none 5 "42" (unchanging state)

/-- The wait within this teardown. -/
def awaited (state : Value) : Ending (Poll.Outcome Float) × World Script :=
  World.poll Script.surroundings (patient.drainSettings "42")
    (patient.drainedCheck Script.surroundings "42") 5
    (patient.drainStart "42" state
      (World.perform Script.surroundings (.get "42") (unchanging state)).2)

/-- The teardown of a busy node ends with the timeout.

**Proof sketch.** The theorem is applied to this teardown. That its wait was not ready, and that the
operations of the last state can be counted, is computed. -/
theorem destroy_undrained_busy :
    ∃ tr elapsed, (patiently busy).2.history = .called (.get "42") (.ok busy) :: tr ∧
      (∀ h ∈ tr, h.isWait "42" = true) ∧
      (patiently busy).1 = .raised (patient.undrained "42" elapsed (lastRead busy tr)) := by
  have htimedOut : (awaited busy).1.result?.any (fun o => !o.ready) = true := by decide +kernel
  obtain ⟨o, ho, hready⟩ := (Option.any_eq_true _ _).1 htimedOut
  obtain ⟨tr, htr, hwait, -, -, hcounted, -⟩ :=
    destroy_undrained patient Script.surroundings none 5 "42" (w := unchanging busy) rfl rfl rfl
      (Prod.ext (Ending.eq_returned_of_result? ho) rfl) (by simpa using hready)
  have hcount : (patient.pending (lastRead busy ((patiently busy).2.history.drop 1))).isOk = true := by
    decide +kernel
  have hdrop : (patiently busy).2.history.drop 1 = tr := congrArg (List.drop 1) htr
  rw [hdrop] at hcount
  obtain ⟨n, hn⟩ : ∃ n, patient.pending (lastRead busy tr) = .ok n := by
    cases hp : patient.pending (lastRead busy tr) with
    | ok n => exact ⟨n, rfl⟩
    | error f => exact absurd hcount (by rw [hp]; exact Bool.false_ne_true)
  exact ⟨tr, o.elapsed, htr, hwait, hcounted n hn⟩

/-- The wait for a node that does not state its operations times out, since that is forgiven; and
yet the teardown does not end with the timeout. -/
theorem destroy_undrained_masked :
    patient.nameOf silent = .ok (.text "web-1a2") ∧
      (∃ o, (awaited silent).1 = .returned o ∧ o.ready = false) ∧
      ∃ f, (patiently silent).1 = .raised f ∧ f.kind = .missingKey := by
  have htimedOut : (awaited silent).1.result?.any (fun o => !o.ready) = true := by decide +kernel
  have hmasked : (patiently silent).1.fault?.any (fun f => f.kind = .missingKey) = true := by
    decide +kernel
  obtain ⟨o, ho, hready⟩ := (Option.any_eq_true _ _).1 htimedOut
  obtain ⟨f, hf, hkind⟩ := (Option.any_eq_true _ _).1 hmasked
  exact ⟨rfl, ⟨o, Ending.eq_returned_of_result? ho, by simpa using hready⟩,
    f, Ending.eq_raised_of_fault? hf, by simpa using hkind⟩

end NodeKeeper.Dismantler
