import Mathlib.Tactic.Lemma
import NodeKeeper.Node.World

/-!
# Specifications of flows

What a flow may do is said by a condition on three things: the happenings that it adds to the
history of its world, how it ends, and what it leaves in mind. A flow *meets* a condition if the
condition holds in every world, whatever the surroundings answer. There is a rule for every step
that flows are put together of, so that what a flow meets follows from what its parts meet.

## Main definitions

* `World.Mind` — what a flow keeps in mind: the cache of secondary resources, and the last state.
* `Ending.result?`, `Ending.fault?` — what a flow ended with.
* `Flow.Meets` — a flow meets a condition.
* `Flow.Until` — a flow goes through happenings of one kind until it comes to a certain point.

## Main results

* `Flow.Meets.bind`, `Flow.Meets.perform_bind`, `Flow.Meets.attempt_bind` — the rules for flows that
  go on.
* `Flow.exists_of_bind_returned` — what a flow with a result went through.
* `Flow.Until.bind` — the rule for points that lie in the second part of a flow.

## Implementation notes

The clock, the log and the surroundings are left out of the conditions: a flow that meets one does
so at any time, and whatever was logged before. What is to be said of them is said of worlds.
-/

namespace NodeKeeper

/-- What a flow keeps in mind. -/
structure World.Mind where
  cache : Option ResourceCache
  seen : Value

/-- What a flow keeps in mind in a world. -/
def World.mind {σ : Type} (w : World σ) : World.Mind := ⟨w.cache, w.seen⟩

namespace Ending

variable {α : Type} {e : Ending α}

/-- The result of a flow, if it came to one. -/
def result? : Ending α → Option α
  | returned a => some a
  | _ => none

/-- The fault that a flow ended with, if it did. -/
def fault? : Ending α → Option Fault
  | raised f => some f
  | _ => none

/-- An ending that has a result has returned it. -/
lemma eq_returned_of_result? {a : α} (h : e.result? = some a) : e = .returned a := by
  cases e with
  | returned b => exact congrArg Ending.returned (Option.some.inj h)
  | raised f => exact absurd h (by simp [result?])
  | unfinished => exact absurd h (by simp [result?])

/-- An ending that has a fault has been raised with it. -/
lemma eq_raised_of_fault? {f : Fault} (h : e.fault? = some f) : e = .raised f := by
  cases e with
  | returned a => exact absurd h (by simp [fault?])
  | raised g => exact congrArg Ending.raised (Option.some.inj h)
  | unfinished => exact absurd h (by simp [fault?])

end Ending

namespace Flow

variable {σ α β : Type}

section Run

variable {ω : Type} {x : Flow ω α} {f : α → Flow ω β} {w w' : ω}

/-- A flow goes on with the result of its first part. -/
lemma bind_of_returned {a : α} (h : x w = (.returned a, w')) : (x >>= f) w = f a w' := by
  change x.andThen f w = f a w'
  rw [andThen, h]

/-- What would follow does not, if a flow fails. -/
lemma bind_of_raised {g : Fault} (h : x w = (.raised g, w')) : (x >>= f) w = (.raised g, w') := by
  change x.andThen f w = (.raised g, w')
  rw [andThen, h]

/-- Nor does it if a flow is not finished. -/
lemma bind_of_unfinished (h : x w = (.unfinished, w')) : (x >>= f) w = (.unfinished, w') := by
  change x.andThen f w = (.unfinished, w')
  rw [andThen, h]

/-- A flow that came to a result went on with a result of its first part. -/
lemma exists_of_bind_returned {b : β} (h : (x >>= f) w = (.returned b, w')) :
    ∃ a w₁, x w = (.returned a, w₁) ∧ f a w₁ = (.returned b, w') := by
  rcases hx : x w with ⟨a | g | _, w₁⟩
  · rw [bind_of_returned hx] at h
    exact ⟨a, w₁, rfl, h⟩
  · rw [bind_of_raised hx] at h
    exact absurd (congrArg Prod.fst h) (by simp)
  · rw [bind_of_unfinished hx] at h
    exact absurd (congrArg Prod.fst h) (by simp)

/-- A flow goes on with the result of a computation. -/
lemma ofExcept_bind_of_ok {r : Except Fault α} {a : α} (h : r = .ok a) (w : ω) :
    (Flow.ofExcept r >>= f) w = f a w := by
  rw [h]
  rfl

/-- What follows depends on what the first part came to only. -/
lemma bind_apply_congr {y : Flow ω α} (h : x w = y w') : (x >>= f) w = (y >>= f) w' := by
  change x.andThen f w = y.andThen f w'
  rw [andThen, andThen, h]

/-- How the parts of a flow are grouped is of no account. -/
lemma bind_assoc_apply {γ : Type} {g : β → Flow ω γ} (w : ω) :
    (x >>= f >>= g) w = (x >>= fun a => f a >>= g) w := by
  rcases hx : x w with ⟨a | e | _, w'⟩
  · rw [bind_of_returned hx]
    change andThen _ g w = andThen (f a) g w'
    rw [andThen, andThen, bind_of_returned hx]
  · rw [bind_of_raised hx, bind_of_raised (bind_of_raised hx)]
  · rw [bind_of_unfinished hx, bind_of_unfinished (bind_of_unfinished hx)]

end Run

/-! ### Steps in a known world -/

section Apply

variable {w : World σ}

/-- What follows an event that is noted begins in the world in which it is recorded. -/
lemma note_bind_apply {f : Unit → Flow (World σ) β} (level : Log.Level) (name : String)
    (fields : List (String × Value)) :
    (World.note level name fields >>= f) w = f () (w.record ⟨level, name, fields⟩) := rfl

/-- What follows a state that is seen begins in the world in which it is the last one. -/
lemma see_bind_apply {f : Unit → Flow (World σ) β} (v : Value) :
    (World.see v >>= f) w = f () { w with seen := v } := rfl

/-- What follows a look at the clock is told the time of the world. -/
lemma clock_bind_apply {f : Float → Flow (World σ) β} : (World.clock >>= f) w = f w.now w := rfl

/-- What a call came to was the answer. -/
lemma outcome_of_perform {env : Surroundings σ} {c : Call} {a : c.Answer} {w' : World σ}
    (h : World.perform env c w = (.returned a, w')) :
    (env.answer c w.backend).1.outcome = .ok a := by
  unfold World.perform at h
  rcases hreply : env.answer c w.backend with ⟨⟨took, f | b⟩, backend⟩
  · rw [hreply] at h
    exact absurd (congrArg Prod.fst h) (by simp)
  · rw [hreply] at h
    exact congrArg Except.ok (Ending.returned.inj (congrArg Prod.fst h))

/-- A call that is answered. -/
lemma perform_of_ok {env : Surroundings σ} {c : Call} {a : c.Answer}
    (h : (env.answer c w.backend).1.outcome = .ok a) :
    ∃ w', World.perform env c w = (.returned a, w') ∧
      w'.history = w.history ++ [.called c (.ok a)] ∧
      w'.backend = (env.answer c w.backend).2 ∧ w'.mind = w.mind := by
  unfold World.perform
  rcases hreply : env.answer c w.backend with ⟨⟨took, out⟩, backend⟩
  rw [hreply] at h
  obtain rfl : out = .ok a := h
  cases took <;> exact ⟨_, rfl, rfl, rfl, rfl⟩

end Apply

/-- A condition on the happenings of a flow, its ending, and what it leaves in mind. -/
abbrev Condition (α : Type) : Type := List Happening → Ending α → World.Mind → Prop

/-- Whatever the surroundings answer, a flow that starts with something in mind fulfils a
condition. -/
def Meets (x : Flow (World σ) α) (m : World.Mind) (P : Condition α) : Prop :=
  ∀ w : World σ, w.mind = m →
    ∃ tr, (x w).2.history = w.history ++ tr ∧ P tr (x w).1 (x w).2.mind

namespace Meets

variable {m : World.Mind} {P Q : Condition α} {R : Condition β} {x : Flow (World σ) α}
  {f : α → Flow (World σ) β}

/-- A flow that meets a condition meets every weaker one. -/
lemma mono (h : x.Meets m P) (hPQ : ∀ tr e m', P tr e m' → Q tr e m') : x.Meets m Q := by
  intro w hw
  obtain ⟨tr, htr, hp⟩ := h w hw
  exact ⟨tr, htr, hPQ _ _ _ hp⟩

/-! ### Steps -/

/-- A flow that returns at once meets what holds of this value and of nothing that happens. -/
lemma pure {a : α} (h : P [] (.returned a) m) : (Pure.pure a : Flow (World σ) α).Meets m P := by
  rintro w rfl
  exact ⟨[], by simp [Pure.pure], h⟩

/-- A flow that fails at once meets what holds of this fault and of nothing that happens. -/
lemma raise {f : Fault} (h : P [] (.raised f) m) : (Flow.raise f : Flow (World σ) α).Meets m P := by
  rintro w rfl
  exact ⟨[], by simp [Flow.raise], h⟩

/-- A result that becomes a flow meets what holds of its value, or of its fault. -/
lemma ofExcept {r : Except Fault α} (hok : ∀ a, r = .ok a → P [] (.returned a) m)
    (herror : ∀ f, r = .error f → P [] (.raised f) m) :
    (Flow.ofExcept r : Flow (World σ) α).Meets m P := by
  cases r with
  | ok a => exact pure (hok a rfl)
  | error f => exact raise (herror f rfl)

/-- An event that is noted is no happening, and does not come to mind. -/
lemma note {P : Condition Unit} (level : Log.Level) (name : String)
    (fields : List (String × Value)) (h : P [] (.returned ()) m) :
    (World.note level name fields : Flow (World σ) Unit).Meets m P := by
  rintro w rfl
  exact ⟨[], by simp [World.note, Flow.change, World.record], h⟩

/-- A state that is seen comes to mind, and nothing happens. -/
lemma see {P : Condition Unit} (v : Value) (h : P [] (.returned ()) { m with seen := v }) :
    (World.see v : Flow (World σ) Unit).Meets m P := by
  rintro w rfl
  exact ⟨[], by simp [World.see, Flow.change], h⟩

/-- A key that is dropped from the cache is gone from what the flow has in mind of it.

**Proof sketch.** Nothing is added to the history. The cache is changed as if the key had been
invalidated; only the log tells whether it was there. -/
lemma dropCached {P : Condition Unit} (key : CacheKey)
    (h : P [] (.returned ()) { m with cache := m.cache.map fun c => (c.invalidate key).2 }) :
    (World.dropCached key : Flow (World σ) Unit).Meets m P := by
  rintro w rfl
  have hworld : (World.dropCached key w).2.history = w.history ∧
      (World.dropCached key w).2.mind =
        { w.mind with cache := w.mind.cache.map fun c => (c.invalidate key).2 } := by
    simp only [World.dropCached, Flow.change, World.mind]
    cases hc : w.cache with
    | none => simp [hc]
    | some c => by_cases hp : (c.invalidate key).1 <;> simp [hp, World.record]
  exact ⟨[], by rw [hworld.1, List.append_nil], by rw [hworld.2]; exact h⟩

/-- What was seen last is what the flow has in mind. -/
lemma lastSeen {P : Condition Value} (h : P [] (.returned m.seen) m) :
    (World.lastSeen : Flow (World σ) Value).Meets m P := by
  rintro w rfl
  exact ⟨[], by simp [World.lastSeen], h⟩

/-- A look at the clock may tell any time: conditions know nothing of time. -/
lemma clock {P : Condition Float} (h : ∀ t, P [] (.returned t) m) :
    (World.clock : Flow (World σ) Float).Meets m P := by
  rintro w rfl
  exact ⟨[], by simp [World.clock], h _⟩

/-- A call may have any outcome. -/
lemma perform {env : Surroundings σ} {c : Call} {P : Condition c.Answer}
    (hok : ∀ a, P [.called c (.ok a)] (.returned a) m)
    (herror : ∀ f, P [.called c (.error f)] (.raised f) m) :
    (World.perform env c).Meets m P := by
  rintro w rfl
  refine ⟨[.called c (env.answer c w.backend).1.outcome], ?_⟩
  unfold World.perform
  rcases env.answer c w.backend with ⟨⟨took, _ | _⟩, backend⟩
  · cases took <;> exact ⟨rfl, herror _⟩
  · cases took <;> exact ⟨rfl, hok _⟩

/-- A pause happens in full, or is cut short by a fault, which is raised then. -/
lemma pause {env : Surroundings σ} {s : Float} {P : Condition Unit}
    (hfull : P [.paused s none] (.returned ()) m)
    (hcut : ∀ f, P [.paused s (some f)] (.raised f) m) : (World.pause env s).Meets m P := by
  rintro w rfl
  refine ⟨[.paused s (env.pause s w.backend).1], ?_⟩
  unfold World.pause
  rcases env.pause s w.backend with ⟨_ | f, backend⟩
  · exact ⟨rfl, hfull⟩
  · exact ⟨rfl, hcut f⟩

/-! ### Flows that go on -/

/-- **What a flow does and then goes on to do.** If the first part ends with a result, the second
part starts with what the first one leaves in mind.

**Proof sketch.** The first part adds some happenings to the history. If it returned, the second one
adds others to these, and the two stretches are put together; if not, the flow ends there. -/
lemma bind (h : x.Meets m fun tr e m' =>
      match e with
      | .returned a => (f a).Meets m' fun tr' => R (tr ++ tr')
      | .raised g => R tr (.raised g) m'
      | .unfinished => R tr .unfinished m') :
    (x >>= f).Meets m R := by
  intro w hw
  obtain ⟨tr, htr, hp⟩ := h w hw
  rcases hx : x w with ⟨_ | _ | _, w'⟩
  · rw [hx] at htr hp
    obtain ⟨tr', htr', hp'⟩ := hp w' rfl
    rw [bind_of_returned hx]
    exact ⟨tr ++ tr', by rw [htr', htr, List.append_assoc], hp'⟩
  · rw [hx] at htr hp
    rw [bind_of_raised hx]
    exact ⟨tr, htr, hp⟩
  · rw [hx] at htr hp
    rw [bind_of_unfinished hx]
    exact ⟨tr, htr, hp⟩

/-- A flow whose faults are handled meets a condition if the flow meets it, with the outcome for
what it returns or fails with.

**Proof sketch.** What happens is the same; only the ending is changed, from a fault to its
outcome. -/
lemma attempt {P : Condition (Except Fault α)} (h : x.Meets m fun tr e m' =>
      match e with
      | .returned a => P tr (.returned (.ok a)) m'
      | .raised g => P tr (.returned (.error g)) m'
      | .unfinished => P tr .unfinished m') :
    x.attempt.Meets m P := by
  intro w hw
  obtain ⟨tr, htr, hp⟩ := h w hw
  refine ⟨tr, ?_⟩
  rw [Flow.attempt]
  rcases hx : x w with ⟨_ | _ | _, w'⟩
  · rw [hx] at htr hp
    exact ⟨htr, hp⟩
  · rw [hx] at htr hp
    exact ⟨htr, hp⟩
  · rw [hx] at htr hp
    exact ⟨htr, hp⟩

/-- What follows an event that is noted has to meet the condition by itself. -/
lemma note_bind {f : Unit → Flow (World σ) β} {level : Log.Level} {name : String}
    {fields : List (String × Value)} (h : (f ()).Meets m R) :
    (World.note level name fields >>= f).Meets m R :=
  bind (note level name fields h)

/-- What follows a state that is seen has to meet it with this state in mind. -/
lemma see_bind {f : Unit → Flow (World σ) β} {v : Value}
    (h : (f ()).Meets { m with seen := v } R) : (World.see v >>= f).Meets m R :=
  bind (see v h)

/-- What follows has to meet it for the state that the flow has in mind. -/
lemma lastSeen_bind {f : Value → Flow (World σ) β} (h : (f m.seen).Meets m R) :
    (World.lastSeen >>= f).Meets m R :=
  bind (lastSeen h)

/-- What follows a look at the clock has to meet it whatever the time is. -/
lemma clock_bind {f : Float → Flow (World σ) β} (h : ∀ t, (f t).Meets m R) :
    (World.clock >>= f).Meets m R :=
  bind (clock h)

/-- What follows a value has to meet it for this value. -/
lemma pure_bind {a : α} (h : (f a).Meets m R) :
    ((Pure.pure a : Flow (World σ) α) >>= f).Meets m R :=
  bind (pure h)

/-- What follows a result has to meet it for its value. If the result is a fault, nothing follows,
and the condition has to hold of this fault. -/
lemma ofExcept_bind {r : Except Fault α} (hok : ∀ a, r = .ok a → (f a).Meets m R)
    (herror : ∀ g, r = .error g → R [] (.raised g) m) :
    ((Flow.ofExcept r : Flow (World σ) α) >>= f).Meets m R :=
  bind (ofExcept hok herror)

/-- What follows a call has to meet it for every answer, with the call in front of all that happens.
If the call fails, nothing follows. -/
lemma perform_bind {env : Surroundings σ} {c : Call} {f : c.Answer → Flow (World σ) β}
    (hok : ∀ a, (f a).Meets m fun tr => R (.called c (.ok a) :: tr))
    (herror : ∀ g, R [.called c (.error g)] (.raised g) m) :
    (World.perform env c >>= f).Meets m R :=
  bind (perform hok herror)

/-- A call whose fault is handled. -/
lemma attempt_bind {env : Surroundings σ} {c : Call} {f : Except Fault c.Answer → Flow (World σ) β}
    (h : ∀ out, (f out).Meets m fun tr => R (.called c out :: tr)) :
    ((World.perform env c).attempt >>= f).Meets m R :=
  bind (attempt (perform (fun a => h (.ok a)) fun g => h (.error g)))

end Meets

/-! ## Points of a run -/

/-- A flow goes through happenings of one kind only; or it does so until it comes to a world from
which on it goes to its end in a certain way. -/
def Until (p : Happening → Prop) (x : Flow (World σ) α) (w : World σ)
    (Q : Ending α × World σ → World σ → Prop) : Prop :=
  (∃ tr, (x w).2.history = w.history ++ tr ∧ ∀ h ∈ tr, p h) ∨
    ∃ tr w₁, w₁.history = w.history ++ tr ∧ (∀ h ∈ tr, p h) ∧ Q (x w) w₁

namespace Until

variable {p : Happening → Prop} {x : Flow (World σ) α} {w : World σ}

/-- If all that happens in a flow is of one kind, then it is so until the end, and there is no
moment to be shown. -/
lemma of_meets {Q : Ending α × World σ → World σ → Prop}
    (h : x.Meets w.mind fun tr _ _ => ∀ h ∈ tr, p h) : Until p x w Q := by
  obtain ⟨tr, htr, hp⟩ := h w rfl
  exact Or.inl ⟨tr, htr, hp⟩

/-- The moment may be there before anything has happened. -/
lemma here {Q : Ending α × World σ → World σ → Prop} (h : Q (x w) w) : Until p x w Q :=
  Or.inr ⟨[], w, (List.append_nil _).symm, by simp, h⟩

/-- A flow that goes on like another one, in a world with the same history. -/
lemma of_eq {y : Flow (World σ) α} {w' : World σ} {Q : Ending α × World σ → World σ → Prop}
    (h : x w = y w') (hw : w'.history = w.history) (H : Until p y w' Q) : Until p x w Q := by
  rcases H with ⟨tr, htr, hp⟩ | ⟨tr, w₁, htr, hp, hq⟩
  · exact Or.inl ⟨tr, by rw [h, htr, hw], hp⟩
  · exact Or.inr ⟨tr, w₁, by rw [htr, hw], hp, h ▸ hq⟩

/-- **The first part of a flow goes through happenings of the kind**; then it depends on the second
part.

**Proof sketch.** If the first part returned, its happenings are put before those that the second
one goes through. If it did not, there are no others. -/
lemma bind {f : α → Flow (World σ) β} {Q : Ending β × World σ → World σ → Prop}
    (hx : x.Meets w.mind fun tr _ _ => ∀ h ∈ tr, p h)
    (hf : ∀ a w', x w = (.returned a, w') → Until p (f a) w' Q) : Until p (x >>= f) w Q := by
  obtain ⟨tr, htr, hp⟩ := hx w rfl
  rcases hxw : x w with ⟨a | g | _, w'⟩
  · rw [hxw] at htr
    have hgrow {tr' : List Happening} {w'' : World σ} (h : w''.history = w'.history ++ tr')
        (hp' : ∀ h ∈ tr', p h) :
        w''.history = w.history ++ (tr ++ tr') ∧ ∀ h ∈ tr ++ tr', p h := by
      refine ⟨by rw [h, htr, List.append_assoc], fun y hy => ?_⟩
      exact (List.mem_append.1 hy).elim (hp y) (hp' y)
    have hgoes : (x >>= f) w = f a w' := bind_of_returned hxw
    rcases hf a w' hxw with ⟨tr', htr', hp'⟩ | ⟨tr', w₁, htr', hp', hq⟩
    · exact Or.inl ⟨tr ++ tr', hgoes ▸ hgrow htr' hp'⟩
    · obtain ⟨hhistory, hall⟩ := hgrow htr' hp'
      exact Or.inr ⟨tr ++ tr', w₁, hhistory, hall, hgoes ▸ hq⟩
  · rw [hxw] at htr
    exact Or.inl ⟨tr, by rw [bind_of_raised hxw]; exact htr, hp⟩
  · rw [hxw] at htr
    exact Or.inl ⟨tr, by rw [bind_of_unfinished hxw]; exact htr, hp⟩

end Until

end Flow

end NodeKeeper
