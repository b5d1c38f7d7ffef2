import NodeKeeper.Node.Teardown
import NodeKeeper.Proofs.Flow.Waiting
import NodeKeeper.Proofs.Node.Happenings
import NodeKeeper.Provider.Scripted

/-!
# The order of a teardown

A teardown reads the node, waits until it has drained, deletes it, reads it once more, and then
removes its secondary resources. It may end early at every step, by a fault, by a cancellation or
because there is nothing to do; but no step is taken out of order, and none that is not called for.

## Main definitions

* `Dismantler.HasDrained` — what is read shows that the node has drained.
* `Dismantler.Passage` — what a teardown may go through, by how far it gets.
* `Dismantler.windUp` — what is left of a teardown once its node is gone.

## Main results

* `Dismantler.meets_destroy` — every teardown is such a passage.
* `Dismantler.destroy_of_read` — what a teardown goes on to do once it has found its node.
* `Dismantler.destroy_safe` — nothing is deleted before the node has drained, and no secondary
  resource is touched before the node is gone.

## Implementation notes

Each part of the flow has a lemma on what it meets, and the passages are put together of these.
Secondary resources are listed and removed by calls of their own here, so that these calls have
their place in the history as well.
-/

namespace NodeKeeper.Dismantler

open NodeKeeper.Flow (Meets)

variable {σ : Type} {d : Dismantler} {env : Surroundings σ} {id : String} {m : World.Mind}

/-- What is read shows that the node has drained: it is gone, or no operation is pending. -/
def HasDrained (d : Dismantler) (v : Value) : Prop :=
  v.isNull = true ∨ ∃ n, d.pending v = .ok n ∧ n.agrees (.int 0) = true

/-! ## Draining -/

/-- One check reads the node once. It passes only if the node has drained.

**Proof sketch.** The call fails, or finds no node, which counts as drained, or finds a state on
which the predicates are asked. -/
lemma meets_drainedCheck :
    (d.drainedCheck env id).Meets m fun tr e m' =>
      m'.cache = m.cache ∧ ∃ out, tr = [.called (.get id) out] ∧
        ((∃ f, out = .error f ∧ e = .raised f) ∨
          ∃ v, out = .ok v ∧ (e = .returned true → d.HasDrained v) ∧ e ≠ .unfinished) := by
  unfold drainedCheck
  refine Meets.perform_bind (fun v => ?_) fun f => ⟨rfl, _, rfl, Or.inl ⟨f, rfl, rfl⟩⟩
  by_cases hn : v.isNull
  · rw [if_pos hn]
    exact Meets.pure ⟨rfl, _, rfl, Or.inr ⟨v, rfl, fun _ => Or.inl hn, by simp⟩⟩
  · rw [if_neg hn]
    refine Meets.see_bind (Meets.ofExcept_bind (fun n hp => Meets.pure ?_) fun f _ => ?_)
    · refine ⟨rfl, _, rfl, Or.inr ⟨v, rfl, fun he => Or.inr ⟨n, hp, ?_⟩, by simp⟩⟩
      simpa using he
    · exact ⟨rfl, _, rfl, Or.inr ⟨v, rfl, by simp, by simp⟩⟩

/-- What a wait for a node goes through: reads and pauses that are not cancelled. -/
def Waits (id : String) (tr : List Happening) : Prop :=
  (∀ h ∈ tr, h.isWait id = true) ∧ Undisturbed tr

/-- One more look or pause is still a wait, unless it was cancelled. -/
lemma Waits.append_single {tr : List Happening} {h : Happening} (H : Waits id tr)
    (hw : h.isWait id = true) (hc : h.isCancelled = false) : Waits id (tr ++ [h]) := by
  refine ⟨fun x hx => ?_, H.2.append fun x hx => ?_⟩
  · rcases List.mem_append.1 hx with hx | hx
    · exact H.1 x hx
    · rwa [List.mem_singleton.1 hx]
  · rwa [List.mem_singleton.1 hx]

/-- How a wait for a node ends: if it is not cut short, the last read shows that the node has
drained. -/
structure Drained (d : Dismantler) (id : String) (tr : List Happening) (passed : Prop) : Prop where
  isWait : ∀ h ∈ tr, h.isWait id = true
  stops : StopsAtCancel tr
  ready : passed → ∃ pre v, tr = pre ++ [.called (.get id) (.ok v)] ∧ Undisturbed pre ∧
    d.HasDrained v

/-- A wait that has not found the node drained is what a drain comes to that has not passed. -/
lemma Waits.drained {tr : List Happening} {passed : Prop} (H : Waits id tr) (hp : ¬ passed) :
    Drained d id tr passed :=
  ⟨H.1, H.2.stops, fun h => absurd h hp⟩

/-- A wait that is cut short at its last step. -/
lemma Waits.drained_single {tr : List Happening} {h : Happening} {passed : Prop} (H : Waits id tr)
    (hw : h.isWait id = true) (hp : ¬ passed) : Drained d id (tr ++ [h]) passed := by
  refine ⟨fun x hx => ?_, H.2.append_stops (StopsAtCancel.single h), fun h => absurd h hp⟩
  rcases List.mem_append.1 hx with hx | hx
  · exact H.1 x hx
  · rwa [List.mem_singleton.1 hx]

/-- The wait for a node to drain keeps waiting: each attempt is a look at the node, and the cache is
not touched.

**Proof sketch.** Each attempt adds one read. The wait ends as ready with a read that shows that
nothing is left, or nothing pending, and in no other way; a fault that is forgiven is no
cancellation. -/
lemma keeps_drained (s : Poll.Settings Float)
    (ht : ∀ k ∈ s.transient, k.isA .ordinary = true) (c : Option ResourceCache) :
    Poll.Keeps s (d.drainedCheck env id) (fun _ tr m => m.cache = c ∧ Waits id tr)
      (fun _ tr m => m.cache = c ∧ Waits id tr)
      fun tr e m => m.cache = c ∧ Drained d id tr (∃ n t, e = .returned ⟨true, n, t⟩) where
  attempt := by
    rintro n tr m ⟨rfl, hw⟩
    refine meets_drainedCheck.mono ?_
    rintro _ e m' ⟨hc, out, rfl, ⟨f, rfl, rfl⟩ | ⟨v, rfl, hready, he⟩⟩
    · dsimp only
      split
      · next hf =>
        have hcancel : f.isA .cancelled = false := Poll.isA_cancelled_of_forgives ht hf
        exact ⟨hc, hw.append_single (by simp [Happening.isWait]) hcancel⟩
      · exact ⟨hc, hw.drained_single (by simp [Happening.isWait]) (by simp)⟩
    · have hw' : Waits id (tr ++ [.called (.get id) (.ok v)]) :=
        hw.append_single (by simp [Happening.isWait]) rfl
      cases e with
      | returned passed =>
        cases passed with
        | true =>
          exact fun t => ⟨hc, hw'.1, hw'.2.stops, fun _ => ⟨tr, v, rfl, hw.2, hready rfl⟩⟩
        | false => exact ⟨hc, hw'⟩
      | raised f =>
        dsimp only
        split
        · exact ⟨hc, hw'⟩
        · exact ⟨hc, hw'.drained (by simp)⟩
      | unfinished => exact absurd rfl he
  late := fun n tr m t ⟨hc, hw⟩ => ⟨hc, hw.drained (by simp)⟩
  cease := fun n tr m ⟨hc, hw⟩ => ⟨hc, hw.drained (by simp)⟩
  pause := fun n tr m ⟨hc, hw⟩ => ⟨hc, hw.append_single rfl rfl⟩
  cut := fun n tr m f ⟨hc, hw⟩ => ⟨hc, hw.drained_single rfl (by simp)⟩

/-- **Draining** leaves the cache alone. If it succeeds, the last thing that happened is a read that
shows that the node has drained.

**Proof sketch.** The wait is described by `keeps_drained`. If it was not ready, the operations are
counted once more, which calls for nothing, and a fault is raised. -/
lemma meets_drain (ht : ∀ k ∈ d.transient, k.isA .ordinary = true) (horizon : Nat)
    (bound : List (String × Value)) :
    (d.drain env horizon id bound).Meets m fun tr e m' =>
      m'.cache = m.cache ∧ Drained d id tr (e = .returned ()) := by
  unfold drain
  refine Meets.note_bind (Meets.bind ?_)
  refine ((keeps_drained _ ht m.cache).meets_poll env horizon ⟨rfl, by simp [Waits, Undisturbed]⟩
    fun _ text => ⟨rfl, by simp, trivial, by simp⟩).mono ?_
  rintro tr e m' ⟨hc, hd⟩
  cases e with
  | returned o =>
    obtain ⟨ready, n, t⟩ := o
    cases ready with
    | true =>
      refine Meets.pure ⟨hc, ?_⟩
      rw [List.append_nil]
      exact ⟨hd.isWait, hd.stops, fun _ => hd.ready ⟨n, t, rfl⟩⟩
    | false =>
      have hraised (g : Fault) : m'.cache = m.cache ∧
          Drained d id (tr ++ []) ((.raised g : Ending Unit) = .returned ()) := by
        rw [List.append_nil]
        exact ⟨hc, hd.isWait, hd.stops, by simp⟩
      refine Meets.lastSeen_bind (Meets.ofExcept_bind (fun count _ => ?_) fun g _ => hraised g)
      exact Meets.note_bind (Meets.raise (hraised _))
  | raised f => exact ⟨hc, hd.isWait, hd.stops, by simp⟩
  | unfinished => exact ⟨hc, hd.isWait, hd.stops, by simp⟩

/-- Whatever draining comes to, it reads the node and pauses, and does nothing else.

**Proof sketch.** The wait goes through reads and pauses by `meets_poll_forall`; what follows it
calls for nothing. -/
lemma meets_drain_any (d : Dismantler) (env : Surroundings σ) (id : String) (m : World.Mind)
    (horizon : Nat) (bound : List (String × Value)) :
    (d.drain env horizon id bound).Meets m fun tr _ m' =>
      m'.cache = m.cache ∧ ∀ h ∈ tr, h.isWait id = true := by
  unfold drain
  refine Meets.note_bind (Meets.bind ?_)
  have hcheck (m : World.Mind) : (d.drainedCheck env id).Meets m fun tr _ m' =>
      m'.cache = m.cache ∧ ∀ h ∈ tr, h.isWait id = true := by
    refine meets_drainedCheck.mono ?_
    rintro _ _ _ ⟨hc, out, rfl, -⟩
    exact ⟨hc, by simp [Happening.isWait]⟩
  refine (Poll.meets_poll_forall env _ World.Mind.cache (fun _ => rfl) hcheck horizon m).mono
    fun tr e m' H => ?_
  have hsame : m'.cache = m.cache ∧ ∀ h ∈ tr ++ [], h.isWait id = true := by
    rwa [List.append_nil]
  cases e with
  | returned o =>
    dsimp only
    split
    · exact Meets.pure hsame
    · refine Meets.lastSeen_bind (Meets.ofExcept_bind (fun count _ => ?_) fun _ _ => hsame)
      exact Meets.note_bind (Meets.raise hsame)
  | raised f => exact H
  | unfinished => exact H

/-! ## Deleting -/

/-- How a deletion goes: the call, and one more read if it was accepted. If it succeeds, the read
shows that the node is gone. -/
structure Deleted (d : Dismantler) (id : String) (tr : List Happening) (passed : Prop) : Prop where
  calls : ∃ out rest, tr = .called (.delete id) out :: rest ∧ ∀ h ∈ rest, h.isWait id = true
  stops : StopsAtCancel tr
  gone : passed → ∃ a v, tr = [.called (.delete id) (.ok a), .called (.get id) (.ok v)] ∧
    a.isTruthy = true ∧ d.isGone v = .ok true

/-- Deleting a node is at most one read and one deletion, and the cache is not touched.

**Proof sketch.** After the deletion at most one read follows. Only if it was accepted, and the read
shows that the node is gone, the phase succeeds. -/
lemma meets_delete (started : Float) (bound : List (String × Value)) :
    (d.delete env id started bound).Meets m fun tr e m' =>
      m'.cache = m.cache ∧ Deleted d id tr (e = .returned ()) := by
  have hfailed (out : Except Fault Value) (g : Fault) :
      Deleted d id [.called (.delete id) out] ((.raised g : Ending Unit) = .returned ()) :=
    ⟨⟨out, [], rfl, by simp⟩, StopsAtCancel.single _, by simp⟩
  have htimed {P : Flow.Condition Unit} (F : Float → Fault) (G : Fault → Fault)
      (hp : ∀ g, P [] (.raised g) m) :
      ((World.clock >>= fun t => pure (F t)) >>= fun fault =>
        (Flow.raise (G fault) : Flow (World σ) Unit)).Meets m P :=
    Meets.bind (Meets.clock_bind fun t => Meets.pure (Meets.raise (hp _)))
  unfold delete
  refine Meets.note_bind (Meets.attempt_bind fun out => ?_)
  cases out with
  | error f =>
    dsimp only
    split
    · exact Meets.raise ⟨rfl, hfailed _ _⟩
    · exact Meets.note_bind (Meets.lastSeen_bind (htimed _ _ fun g => ⟨rfl, hfailed _ _⟩))
  | ok accepted =>
    dsimp only
    split
    · exact Meets.note_bind
        (Meets.lastSeen_bind (htimed _ (fun g => g) fun g => ⟨rfl, hfailed _ _⟩))
    · next haccepted =>
      have hread (out : Except Fault Value) {passed : Prop}
          (hp : passed → ∃ v, out = .ok v ∧ d.isGone v = .ok true) :
          Deleted d id [.called (.delete id) (.ok accepted), .called (.get id) out] passed := by
        refine ⟨⟨_, _, rfl, by simp [Happening.isWait]⟩, ?_, fun h => ?_⟩
        · exact StopsAtCancel.cons rfl (StopsAtCancel.single _)
        · obtain ⟨v, rfl, hv⟩ := hp h
          exact ⟨accepted, v, rfl, by simpa using haccepted, hv⟩
      refine Meets.perform_bind (fun v => Meets.ofExcept_bind (fun gone hg => ?_) fun g _ => ?_)
        fun g => ?_
      · split
        · next hgone => exact Meets.note _ _ _ ⟨rfl, hread _ fun _ => ⟨v, rfl, by rw [hg, hgone]⟩⟩
        · exact Meets.note_bind (htimed _ (fun g => g) fun g => ⟨rfl, hread _ (by simp)⟩)
      · exact ⟨rfl, hread _ (by simp)⟩
      · exact ⟨rfl, hread _ (by simp)⟩

/-! ## Secondary resources -/

/-- How secondary resources are removed: by calls of their own. Only a fault of such a call that
cannot be handled ends it early. -/
structure Cleans {α : Type} (tr : List Happening) (e : Ending α) : Prop where
  isOrphanCall : ∀ h ∈ tr, h.isOrphanCall = true
  stops : StopsAtCancel tr
  raised : ∀ f, e = .raised f → f.isOrdinary = false ∧ ∃ h ∈ tr, h.fault? = some f
  returned : ∀ a, e = .returned a → Undisturbed tr

namespace Cleans

variable {α β : Type} {tr tr' : List Happening} {h : Happening}

/-- Where nothing happens, nothing but cleaning does. -/
lemma nil (a : α) : Cleans [] (.returned a) :=
  ⟨by simp, trivial, by simp, fun _ _ => by simp [Undisturbed]⟩

/-- A call that succeeds, or that fails with a fault that is handled. -/
lemma single (a : α) (ho : h.isOrphanCall = true) (hf : ∀ f ∈ h.fault?, f.isOrdinary = true) :
    Cleans [h] (.returned a) := by
  refine ⟨by simp [ho], StopsAtCancel.single h, by simp, fun _ _ x hx => ?_⟩
  rw [List.mem_singleton.1 hx]
  exact Happening.isCancelled_eq_false_of_isOrdinary hf

/-- A call that fails with a fault that cannot be handled. -/
lemma cut {f : Fault} (ho : h.isOrphanCall = true) (hf : h.fault? = some f)
    (hn : ¬ f.isOrdinary = true) : Cleans [h] (.raised f : Ending α) := by
  refine ⟨by simp [ho], StopsAtCancel.single h, ?_, by simp⟩
  rintro g ⟨⟩
  exact ⟨Bool.eq_false_iff.2 hn, h, List.mem_singleton_self h, hf⟩

/-- Cleaning that goes on after cleaning is cleaning. -/
lemma append {a : α} {e : Ending β} (H : Cleans tr (.returned a)) (H' : Cleans tr' e) :
    Cleans (tr ++ tr') e where
  isOrphanCall h hh := (List.mem_append.1 hh).elim (H.isOrphanCall h) (H'.isOrphanCall h)
  stops := (H.returned a rfl).append_stops H'.stops
  raised f hf := by
    obtain ⟨hn, h, hh, hfault⟩ := H'.raised f hf
    exact ⟨hn, h, List.mem_append_right _ hh, hfault⟩
  returned b hb := (H.returned a rfl).append (H'.returned b hb)

/-- What is done with the result is of no account. -/
lemma map {e : Ending α} {e' : Ending β} (H : Cleans tr e)
    (hraised : ∀ f, e' = .raised f → e = .raised f)
    (hreturned : ∀ b, e' = .returned b → ∃ a, e = .returned a) : Cleans tr e' where
  isOrphanCall := H.isOrphanCall
  stops := H.stops
  raised f hf := H.raised f (hraised f hf)
  returned b hb := by
    obtain ⟨a, ha⟩ := hreturned b hb
    exact H.returned a ha

end Cleans

/-- Removing a secondary resource is cleaning: one call for it, and no other.

**Proof sketch.** One call is made for the resource. To drop a key, and to note what came of it,
calls for nothing. -/
lemma meets_removeOrphan (bound : List (String × Value)) (ref : OrphanRef) (so : Cleanup) :
    (removeOrphan (.direct env) bound ref so).Meets m fun tr e _ => Cleans tr e := by
  unfold removeOrphan OrphanSource.direct
  refine Meets.bind (Meets.attempt (Meets.perform_bind (fun a => Meets.pure ?_) fun f => ?_))
  · have hremoved (b : Cleanup) : Cleans [.called (.deleteOrphan ref) (.ok a)] (.returned b) :=
      Cleans.single b rfl (by simp [Happening.fault?])
    dsimp only
    split
    · exact Meets.bind (Meets.dropCached _ (Meets.note_bind (Meets.pure (hremoved _))))
    · exact Meets.note_bind (Meets.pure (hremoved _))
  · dsimp only
    split
    · next ho =>
      refine Meets.note_bind (Meets.pure (Cleans.single _ rfl ?_))
      simpa [Happening.fault?] using ho
    · next ho => exact Meets.raise (Cleans.cut rfl rfl ho)

/-- So is removing any number of them, whether they can be removed or not. -/
lemma meets_removeOrphans (bound : List (String × Value)) (refs : List OrphanRef) (so : Cleanup) :
    (removeOrphans (.direct env) bound refs so).Meets m fun tr e _ => Cleans tr e := by
  induction refs generalizing so m with
  | nil => exact Meets.pure (Cleans.nil so)
  | cons ref refs ih =>
    rw [removeOrphans]
    refine Meets.bind ((meets_removeOrphan bound ref so).mono fun tr e m' H => ?_)
    cases e with
    | returned so' => exact (ih so').mono fun tr' e' m'' H' => H.append H'
    | raised f => exact H
    | unfinished => exact H

/-- **Removing secondary resources** takes calls of their own only. It is ended by nothing but a
fault that cannot be handled.

**Proof sketch.** The listing is one call. If it succeeded, the removals follow, which are cleaning
by themselves; if it failed with a fault that can be handled, nothing follows. -/
lemma meets_cleanOrphans (bound : List (String × Value)) (name : Value) :
    (cleanOrphans (.direct env) bound name).Meets m fun tr e _ => Cleans tr e := by
  unfold cleanOrphans OrphanSource.direct
  refine Meets.note_bind (Meets.attempt_bind fun out => ?_)
  cases out with
  | ok refs =>
    have hlisted : Cleans [.called (.listOrphans name) (.ok refs)] (.returned ()) :=
      Cleans.single () rfl (by simp [Happening.fault?])
    exact (meets_removeOrphans bound refs {}).mono fun tr e _ H => hlisted.append H
  | error f =>
    dsimp only
    split
    · next ho =>
      refine Meets.note_bind (Meets.pure (Cleans.single _ rfl ?_))
      simpa [Happening.fault?] using ho
    · next ho => exact Meets.raise (Cleans.cut rfl rfl ho)

/-! ## The whole teardown -/

/-- What is left of a teardown once its node is gone: the secondary resources, and the report. -/
def windUp (source : Option (OrphanSource (World σ))) (started : Float) (id : String)
    (name : Value) : Flow (World σ) Dismantled := do
  let bound := [("resource_id", Value.text id)]
  let so ←
    match source with
    | some source => cleanOrphans source bound name
    | none => pure {}
  let elapsed := (← World.clock) - started
  World.note .info "teardown.done"
    (bound ++ [("state", .text TeardownStage.done.word), ("elapsed", .float elapsed),
      ("removed", .int so.removed.length), ("failures", .int so.failures.length)])
  return ⟨id, true, elapsed, so.removed, so.failures, .done⟩

/-- A teardown that has read a node waits for it, deletes it, and winds up.

**Proof sketch.** The first read has found the node and its name, so that the flow goes on. -/
lemma destroy_of_read (source : Option (OrphanSource (World σ))) (horizon : Nat) {w w₁ : World σ}
    {v name : Value} (hread : World.perform env (.get id) w = (.returned v, w₁))
    (hv : v.isNull = false) (hname : d.nameOf v = .ok name) :
    d.destroy env source horizon id w =
      (d.drain env horizon id [("resource_id", .text id)] >>= fun _ =>
        d.delete env id w.now [("resource_id", .text id)] >>= fun _ =>
        windUp source w.now id name) { w₁ with seen := v } := by
  unfold destroy
  rw [Flow.clock_bind_apply]
  dsimp only
  rw [Flow.bind_of_returned hread, if_neg (by simp [hv]), Flow.ofExcept_bind_of_ok hname,
    Flow.see_bind_apply]
  rfl

/-- What a teardown may go through, by how far it gets. -/
inductive Passage (d : Dismantler) (id : String) (m : World.Mind) : Flow.Condition Dismantled
  /-- The node could not be read. -/
  | unread {f : Fault} : Passage d id m [.called (.get id) (.error f)] (.raised f) m
  /-- There is no such node. -/
  | absent {v : Value} (hv : v.isNull = true) (t : Float) :
      Passage d id m [.called (.get id) (.ok v)]
        (.returned { id, deleted := false, elapsed := t }) m
  /-- The node did not drain. -/
  | waited {v : Value} {tr : List Happening} {e : Ending Dismantled} {m' : World.Mind}
      (hv : v.isNull = false) (hw : Drained d id tr False) (he : ∀ r, e ≠ .returned r)
      (hc : m'.cache = m.cache) : Passage d id m (.called (.get id) (.ok v) :: tr) e m'
  /-- The node drained, and was not deleted or is not known to be gone. -/
  | refused {v : Value} {tr tr' : List Happening} {e : Ending Dismantled} {m' : World.Mind}
      (hv : v.isNull = false) (hw : Drained d id tr True) (hd : Deleted d id tr' False)
      (he : ∀ r, e ≠ .returned r) (hc : m'.cache = m.cache) :
      Passage d id m (.called (.get id) (.ok v) :: (tr ++ tr')) e m'
  /-- The node is gone. -/
  | gone {v : Value} {tr tr' tr'' : List Happening} {e : Ending Dismantled} {m' : World.Mind}
      (hv : v.isNull = false) (hw : Drained d id tr True) (hd : Deleted d id tr' True)
      (hclean : Cleans tr'' e) :
      Passage d id m (.called (.get id) (.ok v) :: (tr ++ (tr' ++ tr''))) e m'

/-- **Every teardown** is a passage.

**Proof sketch.** The phases are put together: a teardown stops before the drain, in it, in the
deletion, or in the cleanup, or comes to its end; and for each of these there is a kind of
passage. -/
theorem meets_destroy (ht : ∀ k ∈ d.transient, k.isA .ordinary = true)
    {source : Option (OrphanSource (World σ))} (hs : ∀ s ∈ source, s = .direct env)
    (horizon : Nat) : (d.destroy env source horizon id).Meets m (Passage d id m) := by
  unfold destroy
  refine Meets.clock_bind fun started => ?_
  refine Meets.perform_bind (fun v => ?_) fun f => Passage.unread
  split
  · next hv => exact Meets.note_bind (Meets.clock_bind fun t => Meets.pure (Passage.absent hv _))
  · next hv =>
    replace hv : v.isNull = false := Bool.eq_false_iff.2 hv
    have hunnamed (g : Fault) : Passage d id m [.called (.get id) (.ok v)] (.raised g) m :=
      Passage.waited hv ⟨by simp, trivial, False.elim⟩ (by simp) rfl
    refine Meets.ofExcept_bind (fun name _ => Meets.see_bind ?_) fun g _ => hunnamed g
    refine Meets.bind ((meets_drain ht horizon _).mono fun tr e m' hdrain => ?_)
    obtain ⟨hc, hw⟩ := hdrain
    have hshort (e' : Ending Dismantled) (he : ∀ r, e' ≠ .returned r) :
        Passage d id m (.called (.get id) (.ok v) :: tr) e' m' :=
      Passage.waited hv ⟨hw.isWait, hw.stops, False.elim⟩ he hc
    cases e with
    | raised g => exact hshort _ (by simp)
    | unfinished => exact hshort _ (by simp)
    | returned u =>
      have hw' : Drained d id tr True := ⟨hw.isWait, hw.stops, fun _ => hw.ready rfl⟩
      refine Meets.bind ((meets_delete started _).mono fun tr' e' m'' hdelete => ?_)
      obtain ⟨hc', hd⟩ := hdelete
      have hrefused (e'' : Ending Dismantled) (he : ∀ r, e'' ≠ .returned r) :
          Passage d id m (.called (.get id) (.ok v) :: (tr ++ tr')) e'' m'' :=
        Passage.refused hv hw' ⟨hd.calls, hd.stops, False.elim⟩ he (hc'.trans hc)
      cases e' with
      | raised g => exact hrefused _ (by simp)
      | unfinished => exact hrefused _ (by simp)
      | returned u =>
        have hd' : Deleted d id tr' True := ⟨hd.calls, hd.stops, fun _ => hd.gone rfl⟩
        dsimp only
        cases source with
        | none =>
          refine Meets.pure_bind (Meets.clock_bind fun t => Meets.note_bind (Meets.pure ?_))
          exact Passage.gone hv hw' hd' (Cleans.nil _)
        | some s =>
          obtain rfl := hs s rfl
          refine Meets.bind ((meets_cleanOrphans _ name).mono fun tr'' e'' _ H => ?_)
          have hgone (e : Ending Dismantled) (H' : Cleans tr'' e) (m₃ : World.Mind) :
              Passage d id m (.called (.get id) (.ok v) :: (tr ++ (tr' ++ tr''))) e m₃ :=
            Passage.gone hv hw' hd' H'
          cases e'' with
          | returned so =>
            refine Meets.clock_bind fun t => Meets.note_bind (Meets.pure ?_)
            rw [List.append_nil]
            exact hgone _ (H.map (by simp) (by simp)) _
          | raised g => exact hgone _ (H.map (by simp) (by simp)) _
          | unfinished => exact hgone _ (H.map (by simp) (by simp)) _

/-! ## What passages have in common -/

/-- A drain that has passed was not cancelled. -/
lemma Drained.undisturbed {tr : List Happening} (H : Drained d id tr True) : Undisturbed tr := by
  obtain ⟨pre, v, rfl, hpre, -⟩ := H.ready trivial
  refine hpre.append fun h hh => ?_
  rw [List.mem_singleton.1 hh, Happening.isCancelled_ok]

/-- Nor was a deletion that has passed. -/
lemma Deleted.undisturbed {tr : List Happening} (H : Deleted d id tr True) : Undisturbed tr := by
  obtain ⟨a, v, rfl, -, -⟩ := H.gone trivial
  intro h hh
  obtain rfl | rfl : h = _ ∨ h = _ := by simpa using hh
  · exact Happening.isCancelled_ok _ _
  · exact Happening.isCancelled_ok _ _

/-- While a node is deleted, there is no call for a secondary resource. -/
lemma Deleted.isOrphanCall {tr : List Happening} {passed : Prop} (H : Deleted d id tr passed) :
    ∀ h ∈ tr, h.isOrphanCall = false := by
  obtain ⟨out, rest, rfl, hrest⟩ := H.calls
  intro h hh
  rcases List.mem_cons.1 hh with rfl | hh
  · rfl
  · exact (Happening.of_isWait (hrest h hh)).2

namespace Passage

variable {tr : List Happening} {e : Ending Dismantled} {m' : World.Mind}

/-- The first step is a read of the node, and it is the last one if there is no such node.

**Proof sketch.** All passages begin with the read. It finds nothing in one of them only, which has
no further steps. -/
lemma first (H : Passage d id m tr e m') :
    ∃ out rest, tr = .called (.get id) out :: rest ∧
      ∀ v, out = .ok v → v.isNull = true →
        rest = [] ∧ ∃ r, e = .returned r ∧ r.deleted = false := by
  cases H with
  | unread => exact ⟨_, _, rfl, by simp⟩
  | absent hv t => exact ⟨_, _, rfl, fun _ _ _ => ⟨rfl, _, rfl, rfl⟩⟩
  | waited hv | refused hv | gone hv =>
    refine ⟨_, _, rfl, fun u hu hnull => ?_⟩
    obtain rfl := Except.ok.inj hu
    rw [hv] at hnull
    exact absurd hnull Bool.false_ne_true

/-- If something is deleted, then it is the node, after it has drained and before anything else than
waits and secondary resources.

**Proof sketch.** The cases are those of the passage. Before the deletion there are only reads and
pauses, the last of which shows that the node has drained; behind it there are reads, and what
removes secondary resources. -/
lemma deletion (H : Passage d id m tr e m') :
    (∀ h ∈ tr, h.isDelete = false) ∨
      ∃ before out after, tr = before ++ .called (.delete id) out :: after ∧
        (∀ h ∈ before, h.isDelete = false) ∧ (∀ h ∈ after, h.isDelete = false) ∧
        ∃ first wait v, before = first :: wait ++ [.called (.get id) (.ok v)] ∧
          (∀ h ∈ wait, h.isWait id = true) ∧ d.HasDrained v := by
  have hwaits {waits : List Happening} (hw : ∀ h ∈ waits, h.isWait id = true)
      (out : Except Fault Value) : ∀ h ∈ .called (.get id) out :: waits, h.isDelete = false :=
    fun h hh => (Happening.of_isWait (Happening.isWait_of_mem_get_cons hw h hh)).1
  have hdrained {v : Value} {waits : List Happening} (hw : Drained d id waits True) :
      ∃ first wait u, .called (.get id) (.ok v) :: waits =
          first :: wait ++ [.called (.get id) (.ok u)] ∧
        (∀ h ∈ wait, h.isWait id = true) ∧ d.HasDrained u := by
    obtain ⟨pre, u, rfl, -, hu⟩ := hw.ready trivial
    exact ⟨_, pre, u, rfl, fun h hh => hw.isWait h (List.mem_append_left _ hh), hu⟩
  cases H with
  | unread => exact Or.inl (by simp [Happening.isDelete])
  | absent => exact Or.inl (by simp [Happening.isDelete])
  | waited hv hw => exact Or.inl (hwaits hw.isWait _)
  | refused hv hw hd =>
    obtain ⟨out, rest, rfl, hrest⟩ := hd.calls
    exact Or.inr ⟨_, out, rest, rfl, hwaits hw.isWait _,
      fun h hh => (Happening.of_isWait (hrest h hh)).1, hdrained hw⟩
  | gone hv hw hd hclean =>
    obtain ⟨out, rest, rfl, hrest⟩ := hd.calls
    refine Or.inr ⟨_, out, rest ++ _, rfl, hwaits hw.isWait _, fun h hh => ?_, hdrained hw⟩
    rcases List.mem_append.1 hh with hh | hh
    · exact (Happening.of_isWait (hrest h hh)).1
    · exact Happening.isDelete_eq_false_of_isOrphanCall (hclean.isOrphanCall h hh)

/-- If a secondary resource is touched, then it is after the node is gone.

**Proof sketch.** Only the passage that comes to its end touches secondary resources, and before
these it has the deletion and the read that shows the node gone. All others keep the cache, as no
phase before the cleanup touches it. -/
lemma touched (H : Passage d id m tr e m') :
    ((∀ h ∈ tr, h.isOrphanCall = false) ∧ m'.cache = m.cache) ∨
      (∀ f, e = .raised f → f.isOrdinary = false ∧ ∃ h ∈ tr, h.isOrphanCall = true ∧
        h.fault? = some f) ∧
      ∃ before a v after, tr = before ++
          .called (.delete id) (.ok a) :: .called (.get id) (.ok v) :: after ∧
        (∀ h ∈ before, h.isOrphanCall = false) ∧ a.isTruthy = true ∧ d.isGone v = .ok true := by
  have hwaits {waits : List Happening} (hw : ∀ h ∈ waits, h.isWait id = true)
      (out : Except Fault Value) :
      ∀ h ∈ .called (.get id) out :: waits, h.isOrphanCall = false :=
    fun h hh => (Happening.of_isWait (Happening.isWait_of_mem_get_cons hw h hh)).2
  cases H with
  | unread => exact Or.inl ⟨by simp [Happening.isOrphanCall], rfl⟩
  | absent => exact Or.inl ⟨by simp [Happening.isOrphanCall], rfl⟩
  | waited hv hw he hc => exact Or.inl ⟨hwaits hw.isWait _, hc⟩
  | refused hv hw hd he hc =>
    refine Or.inl ⟨fun h hh => ?_, hc⟩
    rcases List.mem_append.1 (List.cons_append ▸ hh) with hh | hh
    · exact hwaits hw.isWait _ h hh
    · exact hd.isOrphanCall h hh
  | gone hv hw hd hclean =>
    obtain ⟨a, v, rfl, ha, hv⟩ := hd.gone trivial
    refine Or.inr ⟨fun f hf => ?_, _, a, v, _, rfl, hwaits hw.isWait _, ha, hv⟩
    obtain ⟨hn, h, hh, hfault⟩ := hclean.raised f hf
    exact ⟨hn, h, by simp [hh], hclean.isOrphanCall h hh, hfault⟩

/-- Nothing follows a cancellation. -/
lemma stops (H : Passage d id m tr e m') : StopsAtCancel tr := by
  cases H with
  | unread => exact StopsAtCancel.single _
  | absent => exact StopsAtCancel.single _
  | waited hv hw => exact StopsAtCancel.cons rfl hw.stops
  | refused hv hw hd => exact StopsAtCancel.cons rfl (hw.undisturbed.append_stops hd.stops)
  | gone hv hw hd hclean =>
    exact StopsAtCancel.cons rfl
      (hw.undisturbed.append_stops (hd.undisturbed.append_stops hclean.stops))

end Passage

/-! ## Safety -/

/-- **Teardown safety.** The history of a teardown grows by what it went through, and of that: an
absent node is read once and nothing else is done; there is one deletion at most, of this node, and
what happened right before it is a read of the drain phase that shows that the node has drained; no
secondary resource is listed or removed unless the deletion was accepted and the read right after it
shows that the node is gone; if the calls that list and remove secondary resources fail only with
faults that can be handled and cancellations, then a teardown that raises a fault other than a
cancellation has touched no secondary resource, and its cache is as before; and nothing follows a
cancellation.

**Proof sketch.** The teardown is a passage. In every passage the deletion has its place after the
drain phase, and the secondary resources have theirs after the read that follows it. -/
theorem destroy_safe (d : Dismantler) (env : Surroundings σ)
    (ht : ∀ k ∈ d.transient, k.isA .ordinary = true)
    (source : Option (OrphanSource (World σ))) (hs : ∀ s ∈ source, s = .direct env)
    (horizon : Nat) (id : String) (w : World σ) :
    ∃ tr, (d.destroy env source horizon id w).2.history = w.history ++ tr ∧
      -- an absent node
      (∃ out rest, tr = .called (.get id) out :: rest ∧
        ∀ v, out = .ok v → v.isNull = true → rest = [] ∧
          ∃ r, (d.destroy env source horizon id w).1 = .returned r ∧ r.deleted = false) ∧
      -- the deletion
      (∀ pre c out post, tr = pre ++ .called (.delete c) out :: post →
        c = id ∧ (∀ h ∈ pre ++ post, h.isDelete = false) ∧
          ∃ first wait v, pre = first :: wait ++ [.called (.get id) (.ok v)] ∧
            (∀ h ∈ wait, h.isWait id = true) ∧ d.HasDrained v) ∧
      -- secondary resources
      (∀ pre h post, tr = pre ++ h :: post → h.isOrphanCall = true →
        ∃ before a v after, pre = before ++
            .called (.delete id) (.ok a) :: .called (.get id) (.ok v) :: after ∧
          a.isTruthy = true ∧ d.isGone v = .ok true) ∧
      -- faults
      ((∀ h ∈ tr, h.isOrphanCall = true → ∀ f, h.fault? = some f →
          f.isOrdinary = true ∨ f.isA .cancelled = true) →
        ∀ f, (d.destroy env source horizon id w).1 = .raised f → f.isA .cancelled = false →
          (∀ h ∈ tr, h.isOrphanCall = false) ∧
            (d.destroy env source horizon id w).2.cache = w.cache) ∧
      -- cancellation
      ∀ pre h post, tr = pre ++ h :: post → h.isCancelled = true → post = [] := by
  obtain ⟨tr, htr, H⟩ := meets_destroy ht hs horizon w rfl
  refine ⟨tr, htr, H.first, ?_, ?_, ?_, fun pre h post hpost => H.stops.eq_nil hpost⟩
  · rintro pre c out post rfl
    rcases H.deletion with hnone | ⟨before, out', after, hplace, hbefore, hafter, hdrained⟩
    · have hno := hnone (.called (.delete c) out) (by simp)
      exact absurd hno.symm Bool.false_ne_true
    · obtain ⟨rfl, hdelete, rfl⟩ := append_cons_unique
        (p := fun h => h.isDelete = true) hplace.symm (by simpa using hbefore)
        (by simpa using hafter) rfl
      obtain ⟨rfl, -⟩ : c = id ∧ HEq out out' := by simpa using hdelete
      exact ⟨rfl, fun h hh => (List.mem_append.1 hh).elim (hbefore h) (hafter h), hdrained⟩
  · rintro pre h post rfl hh
    rcases H.touched with ⟨hnone, -⟩ | ⟨-, before, a, v, after, hplace, hbefore, ha, hv⟩
    · rw [hnone h (by simp)] at hh
      exact absurd hh Bool.false_ne_true
    · have hsplit : (before ++ [.called (.delete id) (.ok a), .called (.get id) (.ok v)]) ++ after =
          pre ++ h :: post := by rw [hplace]; simp
      obtain ⟨q, rfl, -⟩ := append_cons_cases (p := fun h => h.isOrphanCall = true) hsplit
        (by simpa [or_imp, forall_and, Happening.isOrphanCall] using hbefore) hh
      exact ⟨before, a, v, q, by simp, ha, hv⟩
  · intro hcalm f hf hcancel
    rcases H.touched with hnone | ⟨hraised, -⟩
    · exact hnone
    · obtain ⟨hn, h, hh, horphan, hfault⟩ := hraised f hf
      rcases hcalm h hh horphan f hfault with ho | hc
      · rw [hn] at ho
        exact absurd ho Bool.false_ne_true
      · rw [hc] at hcancel
        exact absurd hcancel.symm Bool.false_ne_true

/-- A node whose state is the number of its pending operations. -/
def counting : Dismantler where
  pending := .ok
  nameOf _ := .ok (.text "node")
  timeout := 5.0
  transient := [.timedOut]

/-- A node that drains although one read fails, and that has a volume. -/
def draining : Script where
  states := [⟨none, .ok (.int 1)⟩, ⟨none, .error (.plain .timedOut none)⟩, ⟨none, .ok (.int 0)⟩,
    ⟨none, .ok .null⟩]
  deleted := [⟨none, .ok (.bool true)⟩]
  orphans := ⟨none, .ok [⟨"volume", .text "v", .text "", none⟩]⟩

/-- The same node, whose deletion is not accepted. -/
def refusing : Script := { draining with deleted := [⟨none, .ok (.bool false)⟩] }

/-- The teardown of such a node. -/
def counted (script : Script) : Ending Dismantled × World Script :=
  counting.destroy Script.surroundings (some Script.orphanSource) 5 "node-1" { backend := script }

/-- The volume of a node is removed after its deletion was accepted and the node was seen gone. It
is left alone if the deletion is not accepted.

**Proof sketch.** The theorem is applied to two runs. Of the first one it is computed that a
secondary resource is touched, and of the second one that none is, and that it ends with a fault
that is no cancellation. -/
theorem destroy_safe_counting :
    (∀ k ∈ counting.transient, k.isA .ordinary = true) ∧
      (∀ s ∈ some Script.orphanSource, s = .direct Script.surroundings) ∧
      (∃ before a v after, (counted draining).2.history = before ++
          .called (.delete "node-1") (.ok a) :: .called (.get "node-1") (.ok v) :: after ∧
        a.isTruthy = true ∧ counting.isGone v = .ok true) ∧
      (∀ h ∈ (counted refusing).2.history, h.isOrphanCall = false) ∧
        (counted refusing).2.cache = none := by
  have ht : ∀ k ∈ counting.transient, k.isA .ordinary = true := by decide
  have hs : ∀ s ∈ some Script.orphanSource, s = .direct Script.surroundings := by
    rintro s ⟨⟩
    rfl
  refine ⟨ht, hs, ?_, ?_⟩
  · obtain ⟨tr, htr, -, -, horphan, -⟩ := destroy_safe counting Script.surroundings ht
      (some Script.orphanSource) hs 5 "node-1" { backend := draining }
    replace htr : (counted draining).2.history = tr := htr
    have htouched : (counted draining).2.history.any Happening.isOrphanCall = true := by
      decide +kernel
    obtain ⟨h, hmem, hh⟩ := List.any_eq_true.1 htouched
    obtain ⟨pre, post, hplace⟩ := List.append_of_mem hmem
    obtain ⟨before, a, v, after, rfl, ha, hv⟩ := horphan pre h post (htr.symm.trans hplace) hh
    exact ⟨before, a, v, after ++ h :: post, by simpa using hplace, ha, hv⟩
  · obtain ⟨tr, htr, -, -, -, hfault, -⟩ := destroy_safe counting Script.surroundings ht
      (some Script.orphanSource) hs 5 "node-1" { backend := refusing }
    replace htr : (counted refusing).2.history = tr := htr
    have hcalm : (counted refusing).2.history.all (fun h => !h.isOrphanCall) = true := by
      decide +kernel
    have hraised : (counted refusing).1.fault?.any (fun f => !f.isA .cancelled) = true := by
      decide +kernel
    obtain ⟨f, hf, hcancel⟩ := (Option.any_eq_true _ _).1 hraised
    rw [htr] at hcalm ⊢
    refine hfault (fun h hh ho => ?_) f (Ending.eq_raised_of_fault? hf) (by simpa using hcancel)
    have hno := List.all_eq_true.1 hcalm h hh
    simp [ho] at hno

end NodeKeeper.Dismantler
