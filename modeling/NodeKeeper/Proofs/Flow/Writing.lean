import NodeKeeper.Proofs.Flow.Waiting
import NodeKeeper.Proofs.Node.Happenings

/-!
# What flows write in the log

A flow *writes* what a report says if the report fits the happenings that the flow adds to the
history, the events that it adds to the log, and how it ends, in every world and whatever the
surroundings answer. There is a rule for every step that flows are put together of.

## Main definitions

* `Flow.Report` — a condition on happenings, events, and an ending.
* `Flow.Writes` — a flow writes what a report says.
* `Flow.Within` — the report that all happenings and events are of certain kinds, and that faults
  are of a kind or come from outside.

## Main results

* `Flow.Writes.bind`, `Flow.Writes.attempt_bind` — the rules for flows that go on.
* `Poll.writes_poll` — a wait writes its notes, and what its check writes.

## Implementation notes

What a flow has in mind is left out of the reports, since no event depends on it but for the values
that it tells.
-/

namespace NodeKeeper

variable {σ α β : Type}

namespace Flow

/-- A condition on the happenings of a flow, the events that it writes, and its ending. -/
abbrev Report (α : Type) : Type := List Happening → List Log.Event → Ending α → Prop

/-- Whatever the surroundings answer, a flow does and writes what a report says. -/
def Writes (x : Flow (World σ) α) (P : Report α) : Prop :=
  ∀ w : World σ, ∃ tr ev, (x w).2.history = w.history ++ tr ∧ (x w).2.log = w.log ++ ev ∧
    P tr ev (x w).1

namespace Writes

variable {P Q : Report α} {R : Report β} {x : Flow (World σ) α} {f : α → Flow (World σ) β}

/-- A flow that writes as one report says writes as every weaker one does. -/
lemma mono (h : x.Writes P) (hPQ : ∀ tr ev e, P tr ev e → Q tr ev e) : x.Writes Q := by
  intro w
  obtain ⟨tr, ev, htr, hev, hp⟩ := h w
  exact ⟨tr, ev, htr, hev, hPQ _ _ _ hp⟩

/-! ### Steps -/

/-- A flow that returns at once writes nothing. -/
lemma pure {a : α} (h : P [] [] (.returned a)) : (Pure.pure a : Flow (World σ) α).Writes P :=
  fun _ => ⟨[], [], by simp [Pure.pure], by simp [Pure.pure], h⟩

/-- Nor does a flow that fails at once. -/
lemma raise {f : Fault} (h : P [] [] (.raised f)) : (Flow.raise f : Flow (World σ) α).Writes P :=
  fun _ => ⟨[], [], by simp [Flow.raise], by simp [Flow.raise], h⟩

/-- A result that becomes a flow writes nothing, and ends with its value or with its fault. -/
lemma ofExcept {r : Except Fault α} (hok : ∀ a, r = .ok a → P [] [] (.returned a))
    (herror : ∀ f, r = .error f → P [] [] (.raised f)) :
    (Flow.ofExcept r : Flow (World σ) α).Writes P := by
  cases r with
  | ok a => exact pure (hok a rfl)
  | error f => exact raise (herror f rfl)

/-- A call may have any outcome, and is not logged. -/
lemma perform {env : Surroundings σ} {c : Call} {P : Report c.Answer}
    (hok : ∀ a, P [.called c (.ok a)] [] (.returned a))
    (herror : ∀ f, P [.called c (.error f)] [] (.raised f)) : (World.perform env c).Writes P := by
  intro w
  refine ⟨[.called c (env.answer c w.backend).1.outcome], [], ?_⟩
  unfold World.perform
  rcases env.answer c w.backend with ⟨⟨took, _ | _⟩, backend⟩
  · cases took <;> exact ⟨rfl, (List.append_nil _).symm, herror _⟩
  · cases took <;> exact ⟨rfl, (List.append_nil _).symm, hok _⟩

/-- A pause is no event, and it is reported whether it was in full or cut short. -/
lemma pause {env : Surroundings σ} {s : Float} {P : Report Unit}
    (hfull : P [.paused s none] [] (.returned ()))
    (hcut : ∀ f, P [.paused s (some f)] [] (.raised f)) : (World.pause env s).Writes P := by
  intro w
  refine ⟨[.paused s (env.pause s w.backend).1], [], ?_⟩
  unfold World.pause
  rcases env.pause s w.backend with ⟨_ | f, backend⟩
  · exact ⟨rfl, (List.append_nil _).symm, hfull⟩
  · exact ⟨rfl, (List.append_nil _).symm, hcut f⟩

/-! ### Flows that go on -/

/-- **What a flow writes and then goes on to write.**

**Proof sketch.** The first part adds some happenings and some events. If it returned, the second
one adds others to these; if not, the flow ends there. -/
lemma bind (h : x.Writes fun tr ev e =>
      match e with
      | .returned a => (f a).Writes fun tr' ev' => R (tr ++ tr') (ev ++ ev')
      | .raised g => R tr ev (.raised g)
      | .unfinished => R tr ev .unfinished) :
    (x >>= f).Writes R := by
  intro w
  obtain ⟨tr, ev, htr, hev, hp⟩ := h w
  rcases hx : x w with ⟨_ | _ | _, w'⟩
  · rw [hx] at htr hev hp
    obtain ⟨tr', ev', htr', hev', hp'⟩ := hp w'
    rw [bind_of_returned hx]
    exact ⟨tr ++ tr', ev ++ ev', by rw [htr', htr, List.append_assoc],
      by rw [hev', hev, List.append_assoc], hp'⟩
  · rw [hx] at htr hev hp
    rw [bind_of_raised hx]
    exact ⟨tr, ev, htr, hev, hp⟩
  · rw [hx] at htr hev hp
    rw [bind_of_unfinished hx]
    exact ⟨tr, ev, htr, hev, hp⟩

/-- A flow whose faults are handled writes what the flow writes, and ends with the outcome for what
it returns or fails with.

**Proof sketch.** What happens and what is written is the same; only the ending is changed, from a
fault to its outcome. -/
lemma attempt {P : Report (Except Fault α)} (h : x.Writes fun tr ev e =>
      match e with
      | .returned a => P tr ev (.returned (.ok a))
      | .raised g => P tr ev (.returned (.error g))
      | .unfinished => P tr ev .unfinished) :
    x.attempt.Writes P := by
  intro w
  obtain ⟨tr, ev, htr, hev, hp⟩ := h w
  refine ⟨tr, ev, ?_⟩
  rw [Flow.attempt]
  rcases hx : x w with ⟨_ | _ | _, w'⟩
  · rw [hx] at htr hev hp
    exact ⟨htr, hev, hp⟩
  · rw [hx] at htr hev hp
    exact ⟨htr, hev, hp⟩
  · rw [hx] at htr hev hp
    exact ⟨htr, hev, hp⟩

/-- An event that is noted is written before all that follows. -/
lemma note_bind {f : Unit → Flow (World σ) β} {level : Log.Level} {name : String}
    {fields : List (String × Value)}
    (h : (f ()).Writes fun tr ev => R tr (⟨level, name, fields⟩ :: ev)) :
    (World.note level name fields >>= f).Writes R := by
  intro w
  obtain ⟨tr, ev, htr, hev, hp⟩ := h (w.record ⟨level, name, fields⟩)
  rw [note_bind_apply]
  exact ⟨tr, ⟨level, name, fields⟩ :: ev, htr, by rw [hev, World.record, List.append_assoc]; rfl,
    hp⟩

/-- A state that is seen is not written. -/
lemma see_bind {f : Unit → Flow (World σ) β} {v : Value} (h : (f ()).Writes R) :
    (World.see v >>= f).Writes R :=
  fun w => h { w with seen := v }

/-- Nor is a look at what was seen last, whatever it was. -/
lemma lastSeen_bind {f : Value → Flow (World σ) β} (h : ∀ v, (f v).Writes R) :
    (World.lastSeen >>= f).Writes R :=
  fun w => h w.seen w

/-- A call is no event, and happens before all that follows. If it fails, nothing follows. -/
lemma perform_bind {env : Surroundings σ} {c : Call} {f : c.Answer → Flow (World σ) β}
    (hok : ∀ a, (f a).Writes fun tr => R (.called c (.ok a) :: tr))
    (herror : ∀ g, R [.called c (.error g)] [] (.raised g)) :
    (World.perform env c >>= f).Writes R :=
  bind (perform hok herror)

/-- A call whose fault is handled. -/
lemma attempt_bind {env : Surroundings σ} {c : Call} {f : Except Fault c.Answer → Flow (World σ) β}
    (h : ∀ out, (f out).Writes fun tr => R (.called c out :: tr)) :
    ((World.perform env c).attempt >>= f).Writes R :=
  bind (attempt (perform (fun a => h (.ok a)) fun g => h (.error g)))

end Writes

/-! ## Reports on everything -/

/-- All happenings and all events are of certain kinds. A fault that ends the flow is of a certain
kind as well, or it is that of a happening. -/
structure Within (p : Happening → Prop) (q : Log.Event → Prop) (F : Fault → Prop)
    (tr : List Happening) (ev : List Log.Event) (e : Ending α) : Prop where
  happenings : ∀ h ∈ tr, p h
  events : ∀ x ∈ ev, q x
  fault : ∀ f, e = .raised f → F f ∨ ∃ h ∈ tr, h.fault? = some f

section Within

variable {p : Happening → Prop} {q : Log.Event → Prop} {F : Fault → Prop}

/-- What is within bounds in two parts, one after the other, is within the same bounds in both
together. -/
lemma Within.append {tr tr' : List Happening} {ev ev' : List Log.Event} {e : Ending α}
    {e' : Ending β} (h : Within p q F tr ev e) (h' : Within p q F tr' ev' e') :
    Within p q F (tr ++ tr') (ev ++ ev') e' where
  happenings x hx := (List.mem_append.1 hx).elim (h.happenings x) (h'.happenings x)
  events x hx := (List.mem_append.1 hx).elim (h.events x) (h'.events x)
  fault f hf := (h'.fault f hf).imp_right fun ⟨x, hx, hxf⟩ =>
    ⟨x, List.mem_append_right _ hx, hxf⟩

/-- A fault that is raised at once is within bounds if it is of the right kind. -/
lemma Within.raised {f : Fault} (hf : F f) : Within p q F [] [] (.raised f : Ending α) :=
  ⟨by simp, by simp, fun _ h => Or.inl (Ending.raised.inj h ▸ hf)⟩

/-- A happening of the right kind is within bounds, and so is a fault that is the one of the
happening. -/
lemma Within.happening {h : Happening} {e : Ending α} (hh : p h)
    (hf : ∀ f, e = .raised f → h.fault? = some f) : Within p q F [h] [] e :=
  ⟨by simpa using hh, by simp, fun f he => Or.inr ⟨h, by simp, hf f he⟩⟩

/-- A flow is within bounds if its parts are. -/
lemma Writes.within_bind {x : Flow (World σ) α} {f : α → Flow (World σ) β}
    (hx : x.Writes (Within p q F)) (hf : ∀ a, (f a).Writes (Within p q F)) :
    (x >>= f).Writes (Within p q F) := by
  refine bind (hx.mono fun tr ev e h => ?_)
  cases e with
  | returned a => exact (hf a).mono fun tr' ev' e' h' => h.append h'
  | raised g => exact ⟨h.happenings, h.events, fun f hf => h.fault f (by cases hf; rfl)⟩
  | unfinished => exact ⟨h.happenings, h.events, fun f hf => absurd hf (by simp)⟩

end Within

end Flow

/-! ## Waits -/

namespace Poll

open NodeKeeper.Flow (Within Writes)

variable {p : Happening → Prop} {q : Log.Event → Prop} {F : Fault → Prop} (env : Surroundings σ)
  {s : Settings Float} {check : Flow (World σ) Bool}

/-- An attempt writes what its check writes, and a note if it does not pass.

**Proof sketch.** An attempt that passes, or that ends the wait by a fault, writes what its check
wrote. Any other one adds a single note. -/
lemma writes_attempt (hnote : ∀ n : Note Float, q (n.event s.label))
    (hcheck : check.Writes (Within p q F)) (n : Nat) :
    (Poll.attempt (World.instruments env s.label) s check n).Writes (Within p q F) := by
  intro w
  obtain ⟨tr, ev, htr, hev, H⟩ := hcheck w
  -- the note of an attempt that did not pass
  have hnoted (w' : World σ) (note : Note Float) (hlog : w'.log = w.log ++ ev) :
      ((World.instruments env s.label).note note w').log = w.log ++ (ev ++ [note.event s.label]) ∧
        Within p q F tr (ev ++ [note.event s.label]) (.returned false) := by
    refine ⟨?_, H.happenings, fun x hx => ?_, by simp⟩
    · rw [← List.append_assoc, ← hlog]
      rfl
    · rcases List.mem_append.1 hx with hx | hx
      · exact H.events x hx
      · exact List.mem_singleton.1 hx ▸ hnote note
  unfold Poll.attempt
  rcases hc : check w with ⟨(_ | _) | f | _, w'⟩
  · rw [hc] at htr hev
    obtain ⟨hlog, H'⟩ := hnoted w' (.notReady n) hev
    exact ⟨tr, _, htr, hlog, H'⟩
  · rw [hc] at htr hev H
    exact ⟨tr, ev, htr, hev, H⟩
  · rw [hc] at htr hev H
    by_cases hf : s.forgives f
    · simp only [hf, if_true]
      obtain ⟨hlog, H'⟩ := hnoted w' (.transientFault n f.message) hev
      exact ⟨tr, _, htr, hlog, H'⟩
    · simp only [hf]
      exact ⟨tr, ev, htr, hev, H⟩
  · rw [hc] at htr hev H
    exact ⟨tr, ev, htr, hev, H⟩

/-- The end of a wait is within bounds if what it notes is: nothing happens in it any more. -/
lemma writes_conclude (hnote : ∀ n : Note Float, q (n.event s.label)) (ready : Bool) (n : Nat)
    (started : Float) :
    (conclude (World.instruments env s.label) s ready n started).Writes (Within p q F) := by
  intro w
  refine ⟨[], [_], (List.append_nil _).symm, rfl, by simp, fun x hx => ?_, by simp [conclude]⟩
  rw [List.mem_singleton.1 hx]
  exact hnote _

/-- A wait after some attempts writes notes, and what its check writes.

**Proof sketch.** By induction on the pauses that are observed. -/
lemma writes_pollFrom (hpause : ∀ cut, p (.paused s.period cut))
    (hnote : ∀ n : Note Float, q (n.event s.label)) (hcheck : check.Writes (Within p q F))
    (started : Float) (horizon n : Nat) :
    (pollFrom (World.instruments env s.label) s check started horizon n).Writes
      (Within p q F) := by
  have hattempt (n : Nat) := writes_attempt env hnote hcheck (n + 1)
  have hended (ready : Bool) (n : Nat) :=
    writes_conclude (p := p) (F := F) env hnote ready (n + 1) started
  induction horizon generalizing n with
  | zero =>
    rw [pollFrom_eq]
    refine Writes.within_bind (hattempt n) fun passed w => ?_
    dsimp only
    split
    · exact hended true n w
    · split
      · exact hended false n w
      · exact ⟨[], [], by simp, by simp, by simp, by simp, by simp⟩
  | succ horizon ih =>
    rw [pollFrom_eq]
    refine Writes.within_bind (hattempt n) fun passed w => ?_
    dsimp only
    split
    · exact hended true n w
    · split
      · exact hended false n w
      · refine Writes.within_bind (Writes.pause ?_ fun f => ?_) (fun _ => ih (n + 1)) w
        · exact Within.happening (hpause none) (by simp)
        · exact Within.happening (hpause (some f)) fun g hg => congrArg some (Ending.raised.inj hg)

/-- **A wait** writes notes, and what its check writes. Its faults are those of its check, those
that cut pauses short, and that it is allowed no time or does not pause. -/
theorem writes_poll (hpause : ∀ cut, p (.paused s.period cut))
    (hnote : ∀ n : Note Float, q (n.event s.label)) (hcheck : check.Writes (Within p q F))
    (hbad : ∀ text, F (.badValue text)) (horizon : Nat) :
    (World.poll env s check horizon).Writes (Within p q F) := by
  intro w
  unfold World.poll poll
  split
  · exact Writes.raise (Within.raised (hbad _)) w
  · split
    · exact Writes.raise (Within.raised (hbad _)) w
    · exact writes_pollFrom env hpause hnote hcheck _ horizon 0 w

end Poll

end NodeKeeper
