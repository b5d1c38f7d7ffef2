import NodeKeeper.Proofs.Flow.Waiting

/-!
# Flows in known surroundings

Once the answers of the surroundings are known, so is everything that a flow does: what it goes
through, how it ends, and the time and the surroundings that it leaves. There is a rule for every
step that flows are put together of, and one for each way in which a bounded wait goes on.

## Main definitions

* `World.Scene` — the time, the state of the surroundings, and the state that was seen last.
* `Flow.Goes` — what a flow goes through from one scene to the next, and how it ends.

## Main results

* `Flow.Goes.perform_bind`, `Flow.Goes.attempt_bind` — the rules for calls with a known answer.
* `Flow.Goes.passed`, `Flow.Goes.late`, `Flow.Goes.paused` — the rules for attempts of a wait: one
  that passes, one after which the time is up, and one that is followed by a pause.

## Implementation notes

The rules are for answers that take no time. The log, the cache and what happened before are left
out of a scene, since no flow depends on them.
-/

namespace NodeKeeper

/-- The time, the state of the surroundings, and the state that was seen last. -/
structure World.Scene (σ : Type) where
  now : Float
  backend : σ
  seen : Value := .null

/-- The scene of a world. -/
def World.scene {σ : Type} (w : World σ) : World.Scene σ := ⟨w.now, w.backend, w.seen⟩

namespace Flow

variable {σ α β : Type}

/-- In one scene, a flow goes through happenings and ends somehow in another scene. -/
def Goes (x : Flow (World σ) α) (s : World.Scene σ) (tr : List Happening) (e : Ending α)
    (s' : World.Scene σ) : Prop :=
  ∀ w : World σ, w.scene = s →
    (x w).1 = e ∧ (x w).2.history = w.history ++ tr ∧ (x w).2.scene = s'

namespace Goes

variable {s s' s₁ : World.Scene σ} {tr tr' : List Happening} {e : Ending β} {x : Flow (World σ) α}
  {f : α → Flow (World σ) β}

/-! ### Steps -/

/-- A flow that returns at once goes without a happening, and leaves the standing as it is. -/
lemma pure (a : α) : (Pure.pure a : Flow (World σ) α).Goes s [] (.returned a) s := by
  rintro w rfl
  exact ⟨rfl, (List.append_nil _).symm, rfl⟩

/-- So does a flow that fails at once. -/
lemma raise (g : Fault) : (Flow.raise g : Flow (World σ) α).Goes s [] (.raised g) s := by
  rintro w rfl
  exact ⟨rfl, (List.append_nil _).symm, rfl⟩

/-- A result that is known to be a value is returned, and nothing happens. -/
lemma ofExcept {r : Except Fault α} {a : α} (h : r = .ok a) :
    (Flow.ofExcept r : Flow (World σ) α).Goes s [] (.returned a) s := by
  rw [h]
  exact pure a

/-- A call whose answer is known goes so: the call happens, its answer is returned, and the
surroundings are as they are after it. -/
lemma perform {env : Surroundings σ} {c : Call} {a : c.Answer} {b : σ}
    (h : env.answer c s.backend = (⟨none, .ok a⟩, b)) :
    (World.perform env c).Goes s [.called c (.ok a)] (.returned a) { s with backend := b } := by
  rintro w rfl
  change env.answer c w.backend = _ at h
  unfold World.perform
  rw [h]
  exact ⟨rfl, rfl, rfl⟩

/-- A pause that is known not to be cut short goes so: it happens, and its time has passed. -/
lemma pause {env : Surroundings σ} {t : Float} {b : σ} (h : env.pause t s.backend = (none, b)) :
    (World.pause env t).Goes s [.paused t none] (.returned ())
      { s with now := s.now + t, backend := b } := by
  rintro w rfl
  change env.pause t w.backend = _ at h
  unfold World.pause
  rw [h]
  exact ⟨rfl, rfl, rfl⟩

/-! ### Flows that go on -/

/-- **What a flow does and then goes on to do.** -/
lemma bind {a : α} (hx : x.Goes s tr (.returned a) s₁) (hf : (f a).Goes s₁ tr' e s') :
    (x >>= f).Goes s (tr ++ tr') e s' := by
  intro w hw
  obtain ⟨hend, htr, hs⟩ := hx w hw
  have hxw : x w = (.returned a, (x w).2) := Prod.ext hend rfl
  rw [bind_of_returned hxw]
  obtain ⟨hend', htr', hs'⟩ := hf _ hs
  exact ⟨hend', by rw [htr', htr, List.append_assoc], hs'⟩

/-- A flow that goes on after a step without happenings. -/
lemma bind_quiet {a : α} (hx : x.Goes s [] (.returned a) s₁) (hf : (f a).Goes s₁ tr e s') :
    (x >>= f).Goes s tr e s' :=
  bind hx hf

/-- A flow whose fault would be handled. -/
lemma attempt {a : α} (hx : x.Goes s tr (.returned a) s') :
    x.attempt.Goes s tr (.returned (.ok a)) s' := by
  intro w hw
  obtain ⟨hend, htr, hs⟩ := hx w hw
  have hxw : x w = (.returned a, (x w).2) := Prod.ext hend rfl
  have hattempt : x.attempt w = (.returned (.ok a), (x w).2) := by
    unfold Flow.attempt
    rw [hxw]
  rw [hattempt]
  exact ⟨rfl, htr, hs⟩

/-- What is noted in the log does not show in how a flow goes on. -/
lemma note_bind {f : Unit → Flow (World σ) β} {level : Log.Level} {name : String}
    {fields : List (String × Value)} (h : (f ()).Goes s tr e s') :
    (World.note level name fields >>= f).Goes s tr e s' := by
  intro w hw
  rw [note_bind_apply]
  exact h _ hw

/-- What is seen is seen by all that follows. -/
lemma see_bind {f : Unit → Flow (World σ) β} {v : Value}
    (h : (f ()).Goes { s with seen := v } tr e s') : (World.see v >>= f).Goes s tr e s' := by
  rintro w rfl
  rw [see_bind_apply]
  exact h _ rfl

/-- What follows is told what was seen last. -/
lemma lastSeen_bind {f : Value → Flow (World σ) β} (h : (f s.seen).Goes s tr e s') :
    (World.lastSeen >>= f).Goes s tr e s' := by
  rintro w rfl
  exact h w rfl

/-- What follows is told the time. -/
lemma clock_bind {f : Float → Flow (World σ) β} (h : (f s.now).Goes s tr e s') :
    (World.clock >>= f).Goes s tr e s' := by
  rintro w rfl
  rw [clock_bind_apply]
  exact h w rfl

/-- What follows is told the value that the result is known to be. -/
lemma ofExcept_bind {r : Except Fault α} {a : α} (hr : r = .ok a) (h : (f a).Goes s tr e s') :
    ((Flow.ofExcept r : Flow (World σ) α) >>= f).Goes s tr e s' :=
  bind_quiet (ofExcept hr) h

section Calls

variable {env : Surroundings σ} {c : Call} {a : c.Answer} {b : σ}

/-- What follows is told the answer, and happens after the call. -/
lemma perform_bind {f : c.Answer → Flow (World σ) β}
    (hanswer : env.answer c s.backend = (⟨none, .ok a⟩, b))
    (h : (f a).Goes { s with backend := b } tr e s') :
    (World.perform env c >>= f).Goes s (.called c (.ok a) :: tr) e s' :=
  bind (perform hanswer) h

/-- A call whose fault would be handled. -/
lemma attempt_bind {f : Except Fault c.Answer → Flow (World σ) β}
    (hanswer : env.answer c s.backend = (⟨none, .ok a⟩, b))
    (h : (f (.ok a)).Goes { s with backend := b } tr e s') :
    ((World.perform env c).attempt >>= f).Goes s (.called c (.ok a) :: tr) e s' :=
  bind (attempt (perform hanswer)) h

end Calls

/-! ### Bounded waits -/

section Waits

open Poll

variable {env : Surroundings σ} {label : String} {st : Poll.Settings Float}
  {check : Flow (World σ) Bool} {horizon n : Nat} {started t : Float} {b : σ} {v : Value}
  {o : Ending (Poll.Outcome Float)}

/-- An attempt is what its check comes to. -/
lemma attempt_check {passed : Bool} (h : check.Goes s tr (.returned passed) s') :
    (Poll.attempt (World.instruments env label) st check n).Goes s tr (.returned passed) s' := by
  intro w hw
  obtain ⟨hend, htr, hs⟩ := h w hw
  have hcheck : check w = (.returned passed, (check w).2) := Prod.ext hend rfl
  unfold Poll.attempt
  rw [hcheck]
  cases passed with
  | true => exact ⟨rfl, htr, hs⟩
  | false => exact ⟨rfl, htr, hs⟩

/-- A wait ends with an attempt that passes. -/
lemma passed (h : check.Goes s tr (.returned true) ⟨t, b, v⟩) :
    (pollFrom (World.instruments env label) st check started horizon n).Goes s tr
      (.returned ⟨true, n + 1, t - started⟩) ⟨t, b, v⟩ := by
  rw [pollFrom_eq, ← List.append_nil tr]
  refine bind (attempt_check h) ?_
  intro w hw
  obtain ⟨rfl, rfl, rfl⟩ := World.Scene.mk.inj hw
  exact ⟨rfl, (List.append_nil _).symm, rfl⟩

/-- A wait ends with an attempt that does not pass if the time is up by then. -/
lemma late (h : check.Goes s tr (.returned false) ⟨t, b, v⟩) (hlate : st.timeout ≤ t - started) :
    (pollFrom (World.instruments env label) st check started horizon n).Goes s tr
      (.returned ⟨false, n + 1, t - started⟩) ⟨t, b, v⟩ := by
  rw [pollFrom_eq, ← List.append_nil tr]
  refine bind (attempt_check h) ?_
  intro w hw
  obtain ⟨rfl, rfl, rfl⟩ := World.Scene.mk.inj hw
  change st.timeout ≤ (World.instruments env label).now w - started at hlate
  dsimp only
  rw [if_neg Bool.false_ne_true, if_pos hlate]
  exact ⟨rfl, (List.append_nil _).symm, rfl⟩

/-- A wait goes on after an attempt that does not pass, and a pause.

**Proof sketch.** The attempt goes as its check does. As it did not pass and the time is not up, a
pause follows, after which the rest of the wait is what is assumed. -/
lemma paused {b' : σ} (h : check.Goes s tr (.returned false) ⟨t, b, v⟩)
    (htime : ¬ st.timeout ≤ t - started) (hpause : env.pause st.period b = (none, b'))
    (hrest : (pollFrom (World.instruments env label) st check started horizon (n + 1)).Goes
      ⟨t + st.period, b', v⟩ tr' o s') :
    (pollFrom (World.instruments env label) st check started (horizon + 1) n).Goes s
      (tr ++ .paused st.period none :: tr') o s' := by
  rw [pollFrom_eq]
  refine bind (attempt_check h) ?_
  intro w hw
  obtain ⟨rfl, rfl, rfl⟩ := World.Scene.mk.inj hw
  change ¬ st.timeout ≤ (World.instruments env label).now w - started at htime
  dsimp only
  rw [if_neg Bool.false_ne_true, if_neg htime]
  have hpaused : (World.pause env st.period).Goes w.scene [.paused st.period none] (.returned ())
      ⟨w.now + st.period, b', w.seen⟩ := pause (s := w.scene) hpause
  exact bind hpaused hrest w rfl

/-- A wait without a flaw starts with its first attempt. -/
lemma poll (hbounds : ¬ st.timeout ≤ 0 ∧ ¬ st.period ≤ 0)
    (h : (pollFrom (World.instruments env st.label) st check s.now horizon 0).Goes s tr o s') :
    (World.poll env st check horizon).Goes s tr o s' := by
  rintro w rfl
  rw [poll_of_flawless env check horizon w (flaw?_eq_none_iff.2 hbounds)]
  exact h w rfl

end Waits

end Goes

end Flow

end NodeKeeper
