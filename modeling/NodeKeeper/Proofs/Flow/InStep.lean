import Mathlib.Data.List.Forall2
import Mathlib.Tactic.Lemma
import NodeKeeper.Proofs.Flow.Waiting

/-!
# Flows in step

Two flows are compared that run in two worlds. They go *in step* if they end in the same way and
leave worlds behind that are alike, whenever they start in worlds that are alike. There is a rule
for every step that flows are put together of, so that two flows go in step if their parts do.

## Main definitions

* `Likeness` — in what two worlds are alike: what answers the calls, the states of nodes, the log.
* `Likeness.Worlds` — two worlds are alike.
* `Likeness.Answers` — two surroundings answer alike.
* `Flow.InStep` — two flows go in step.

## Main results

* `Flow.InStep.bind`, `Flow.InStep.perform`, `Flow.InStep.attempt` — the rules for flows.
* `Flow.InStep.poll` — two waits go in step if their checks do.

## Implementation notes

Clock and cache are the same in worlds that are alike. What may differ is left to the likeness: two
states of a node, or two events of the log, are alike if they are in the given relation.
-/

namespace NodeKeeper

variable {σ σ' α α' β β' : Type}

/-- In what two worlds are alike. -/
structure Likeness (σ σ' : Type) where
  backend : σ → σ' → Prop
  /-- Two states of a node are alike. -/
  state : Value → Value → Prop
  event : Log.Event → Log.Event → Prop
  event_refl : ∀ e, event e e

/-- Two outcomes are of the same sort, with results and faults in given relations. -/
inductive Outcomes (V : α → α' → Prop) (F : Fault → Fault → Prop) :
    Except Fault α → Except Fault α' → Prop
  | ok {a : α} {a' : α'} (h : V a a') : Outcomes V F (.ok a) (.ok a')
  | error {f f' : Fault} (h : F f f') : Outcomes V F (.error f) (.error f')

/-- Outcomes that correspond still do if less is asked of their values. -/
lemma Outcomes.imp {V U : α → α' → Prop} {F : Fault → Fault → Prop} {x : Except Fault α}
    {x' : Except Fault α'} (h : Outcomes V F x x') (hVU : ∀ a a', V a a' → U a a') :
    Outcomes U F x x' := by
  cases h with
  | ok ha => exact .ok (hVU _ _ ha)
  | error hf => exact .error hf

/-- Outcomes that become the same under a function. -/
lemma Outcomes.of_map_eq {γ : Type} {g : α → γ} {g' : α' → γ} {x : Except Fault α}
    {x' : Except Fault α'} (h : x.map g = x'.map g') :
    Outcomes (fun a a' => g a = g' a') Eq x x' := by
  cases x <;> cases x' <;> simp only [Except.map, Except.error.injEq, Except.ok.injEq,
    reduceCtorEq] at h
  · exact .error h
  · exact .ok h

/-- Two endings are of the same sort, with results and faults in given relations. -/
inductive Endings (V : α → α' → Prop) (F : Fault → Fault → Prop) :
    Ending α → Ending α' → Prop
  | returned {a : α} {a' : α'} (h : V a a') : Endings V F (.returned a) (.returned a')
  | raised {f f' : Fault} (h : F f f') : Endings V F (.raised f) (.raised f')
  | unfinished : Endings V F .unfinished .unfinished

namespace Likeness

/-- Two worlds are alike. -/
structure Worlds (K : Likeness σ σ') (w : World σ) (w' : World σ') : Prop where
  now : w'.now = w.now
  backend : K.backend w.backend w'.backend
  log : List.Forall₂ K.event w.log w'.log
  cache : w'.cache = w.cache
  seen : K.state w.seen w'.seen

/-- Two answers to a call are alike. They are the same unless they tell a state. -/
def answer (K : Likeness σ σ') : (c : Call) → c.Answer → c.Answer → Prop
  | .get _, v, v' | .getImage _, v, v' => K.state v v'
  | .create _, h, h' | .createImage _ _, h, h' => h'.id = h.id ∧ K.state h.status h'.status
  | _, a, a' => a = a'

/-- Two surroundings answer alike, and take the same time. -/
structure Answers (K : Likeness σ σ') (env : Surroundings σ) (env' : Surroundings σ') : Prop where
  call : ∀ c {s s'}, K.backend s s' →
    (env'.answer c s').1.took = (env.answer c s).1.took ∧
      Outcomes (K.answer c) Eq (env.answer c s).1.outcome (env'.answer c s').1.outcome ∧
      K.backend (env.answer c s).2 (env'.answer c s').2
  pause : ∀ t {s s'}, K.backend s s' →
    (env'.pause t s').1 = (env.pause t s).1 ∧ K.backend (env.pause t s).2 (env'.pause t s').2

end Likeness

namespace Flow

/-- Two flows go in step: from worlds that are alike they come to the same ending, and to worlds
that are alike again. -/
def InStep (K : Likeness σ σ') (V : α → α' → Prop) (F : Fault → Fault → Prop)
    (x : Flow (World σ) α) (y : Flow (World σ') α') : Prop :=
  ∀ w w', K.Worlds w w' → Endings V F (x w).1 (y w').1 ∧ K.Worlds (x w).2 (y w').2

namespace InStep

variable {K : Likeness σ σ'} {V : α → α' → Prop} {U : β → β' → Prop} {F G : Fault → Fault → Prop}
  {x : Flow (World σ) α} {y : Flow (World σ') α'} {f : α → Flow (World σ) β}
  {g : α' → Flow (World σ') β'}

/-- Flows that are in step still are if less is asked of their faults. -/
lemma mono (h : InStep K V F x y) (hF : ∀ a b, F a b → G a b) : InStep K V G x y := by
  intro w w' H
  obtain ⟨hend, hworlds⟩ := h w w' H
  refine ⟨?_, hworlds⟩
  generalize (x w).1 = e, (y w').1 = e' at hend ⊢
  cases hend with
  | returned ha => exact .returned ha
  | raised hf => exact .raised (hF _ _ hf)
  | unfinished => exact .unfinished

/-! ### Steps -/

/-- Flows that return at once are in step if what they return corresponds. -/
lemma pure {a : α} {a' : α'} (h : V a a') :
    InStep K V F (Pure.pure a : Flow (World σ) α) (Pure.pure a') :=
  fun _ _ H => ⟨.returned h, H⟩

/-- Flows that fail at once are in step if their faults correspond. -/
lemma raise {e e' : Fault} (h : F e e') :
    InStep K V F (Flow.raise e : Flow (World σ) α) (Flow.raise e') :=
  fun _ _ H => ⟨.raised h, H⟩

/-- The same computation in both. -/
lemma ofExcept (hF : ∀ e, F e e) (r : Except Fault α) :
    InStep K Eq F (Flow.ofExcept r) (Flow.ofExcept r) := by
  cases r with
  | ok a => exact pure rfl
  | error e => exact raise (hF e)

/-- The event of one log is like that of the other. -/
lemma note_of_event {level : Log.Level} {name : String} {fields fields' : List (String × Value)}
    (h : K.event ⟨level, name, fields⟩ ⟨level, name, fields'⟩) :
    InStep K Eq F (World.note level name fields) (World.note level name fields') :=
  fun _ _ H => ⟨.returned rfl, H.now, H.backend, List.rel_append H.log (.cons h .nil), H.cache,
    H.seen⟩

/-- Both flows note the same event in their logs. -/
lemma note {level : Log.Level} {name : String} {fields : List (String × Value)} :
    InStep K Eq F (World.note level name fields) (World.note level name fields) :=
  note_of_event (K.event_refl _)

/-- Both flows see states that correspond, and have seen them from then on. -/
lemma see {v v' : Value} (h : K.state v v') : InStep K Eq F (World.see v) (World.see v') :=
  fun _ _ H => ⟨.returned rfl, H.now, H.backend, H.log, H.cache, h⟩

/-- What both flows have seen last are states that correspond. -/
lemma lastSeen : InStep K K.state F World.lastSeen World.lastSeen :=
  fun _ _ H => ⟨.returned H.seen, H⟩

/-- Both flows read the same time. -/
lemma clock : InStep K Eq F World.clock World.clock := fun _ _ H => ⟨.returned H.now.symm, H⟩

/-- Both flows drop the same key from their caches, which have the same entries before and after.

**Proof sketch.** The caches are equal, so the key is dropped from both or from none, and the note
on it is the same. -/
lemma dropCached (key : CacheKey) : InStep K Eq F (World.dropCached key) (World.dropCached key) := by
  intro w w' H
  simp only [World.dropCached, Flow.change, H.cache]
  refine ⟨.returned rfl, ?_⟩
  cases w.cache with
  | none => exact H
  | some c =>
    dsimp only
    have hdropped : K.Worlds { w with cache := some (c.invalidate key).2 }
        { w' with cache := some (c.invalidate key).2 } :=
      ⟨H.now, H.backend, H.log, rfl, H.seen⟩
    split
    · exact ⟨hdropped.now, hdropped.backend,
        List.rel_append hdropped.log (.cons (K.event_refl _) .nil), rfl, hdropped.seen⟩
    · exact hdropped

variable {env : Surroundings σ} {env' : Surroundings σ'}

/-- A call to surroundings that answer alike.

**Proof sketch.** The surroundings answer with outcomes that correspond, after the same time, and
are left in states that correspond. The rest of the worlds is as before, but for the clock. -/
lemma perform (hK : K.Answers env env') (c : Call) :
    InStep K (K.answer c) Eq (World.perform env c) (World.perform env' c) := by
  intro w w' H
  obtain ⟨htook, houtcome, hanswered⟩ := hK.call c H.backend
  unfold World.perform
  generalize env.answer c w.backend = r, env'.answer c w'.backend = r' at *
  obtain ⟨⟨took, out⟩, b⟩ := r
  obtain ⟨⟨took', out'⟩, b'⟩ := r'
  obtain rfl : took' = took := htook
  have hworlds (tr tr' : List Happening) :
      K.Worlds ({ w with history := tr, backend := b }.advance took')
        ({ w' with history := tr', backend := b' }.advance took') := by
    cases took' with
    | none => exact ⟨H.now, hanswered, H.log, H.cache, H.seen⟩
    | some t => exact ⟨congrArg (· + t) H.now, hanswered, H.log, H.cache, H.seen⟩
  cases houtcome with
  | ok ha => exact ⟨.returned ha, hworlds _ _⟩
  | error hf => exact ⟨.raised hf, hworlds _ _⟩

/-- Both flows pause for the same time, and are cut short alike.

**Proof sketch.** Whether the pause is cut short is told by the surroundings, which answer alike. -/
lemma pause (hK : K.Answers env env') (t : Float) :
    InStep K Eq Eq (World.pause env t) (World.pause env' t) := by
  intro w w' H
  obtain ⟨hcut, hpaused⟩ := hK.pause t H.backend
  unfold World.pause
  generalize env.pause t w.backend = r, env'.pause t w'.backend = r' at *
  obtain ⟨cut, b⟩ := r
  obtain ⟨cut', b'⟩ := r'
  obtain rfl : cut' = cut := hcut
  cases cut' with
  | none =>
    exact ⟨.returned rfl, congrArg (· + t) H.now, hpaused, H.log, H.cache, H.seen⟩
  | some e => exact ⟨.raised rfl, H.now, hpaused, H.log, H.cache, H.seen⟩

/-! ### Flows that go on -/

/-- **Two flows that go on in step.**

**Proof sketch.** The endings of the first parts correspond. If both have returned, the second parts
go on in step from there; if not, both flows end as their first parts did. -/
lemma bind (h : InStep K V F x y) (hf : ∀ a a', V a a' → InStep K U F (f a) (g a')) :
    InStep K U F (x >>= f) (y >>= g) := by
  intro w w' H
  obtain ⟨hend, hworlds⟩ := h w w' H
  rcases hx : x w with ⟨e, w₁⟩
  rcases hy : y w' with ⟨e', w₁'⟩
  rw [hx, hy] at hend hworlds
  cases hend with
  | returned ha =>
    rw [bind_of_returned hx, bind_of_returned hy]
    exact hf _ _ ha _ _ hworlds
  | raised hg =>
    rw [bind_of_raised hx, bind_of_raised hy]
    exact ⟨.raised hg, hworlds⟩
  | unfinished =>
    rw [bind_of_unfinished hx, bind_of_unfinished hy]
    exact ⟨.unfinished, hworlds⟩

/-- Two flows that go on in step after the same result. -/
lemma bind_eq {y : Flow (World σ') α} {g : α → Flow (World σ') β'} (h : InStep K Eq F x y)
    (hf : ∀ a, InStep K U F (f a) (g a)) : InStep K U F (x >>= f) (y >>= g) :=
  h.bind fun a _ ha => ha ▸ hf a

/-- Flows that are in step still are once their faults are handled: either both return, or both have
failed with faults that correspond. -/
lemma attempt (h : InStep K V F x y) : InStep K (Outcomes V F) G x.attempt y.attempt := by
  intro w w' H
  obtain ⟨hend, hworlds⟩ := h w w' H
  unfold Flow.attempt
  rcases hx : x w with ⟨e, w₁⟩
  rcases hy : y w' with ⟨e', w₁'⟩
  rw [hx, hy] at hend hworlds
  cases hend with
  | returned ha => exact ⟨.returned (.ok ha), hworlds⟩
  | raised hg => exact ⟨.returned (.error hg), hworlds⟩
  | unfinished => exact ⟨.unfinished, hworlds⟩

/-! ### Waits -/

section Wait

variable {s : Poll.Settings Float} {check : Flow (World σ) Bool} {check' : Flow (World σ') Bool}

/-- Worlds that correspond still do once the same event is recorded in both. -/
lemma record (e : Log.Event) {w : World σ} {w' : World σ'} (H : K.Worlds w w') :
    K.Worlds (w.record e) (w'.record e) :=
  ⟨H.now, H.backend, List.rel_append H.log (.cons (K.event_refl e) .nil), H.cache, H.seen⟩

/-- One attempt of a wait.

**Proof sketch.** The checks end alike. The note that is made of a check that did not pass is the
same in both, and the same faults are forgiven. -/
lemma pollAttempt (hcheck : InStep K Eq Eq check check') (n : Nat) :
    InStep K Eq Eq (Poll.attempt (World.instruments env s.label) s check n)
      (Poll.attempt (World.instruments env' s.label) s check' n) := by
  intro w w' H
  obtain ⟨hend, hworlds⟩ := hcheck w w' H
  unfold Poll.attempt
  generalize check w = r, check' w' = r' at *
  obtain ⟨e, w₁⟩ := r
  obtain ⟨e', w₁'⟩ := r'
  cases hend with
  | @returned passed _ ha =>
    subst ha
    cases passed with
    | true => exact ⟨.returned rfl, hworlds⟩
    | false => exact ⟨.returned rfl, record _ hworlds⟩
  | raised hg =>
    subst hg
    dsimp only
    split
    · exact ⟨.returned rfl, record _ hworlds⟩
    · exact ⟨.raised rfl, hworlds⟩
  | unfinished => exact ⟨.unfinished, hworlds⟩

/-- How a wait ended is noted. -/
lemma conclude {ready : Bool} {n : Nat} {started : Float} :
    InStep K Eq F (Poll.conclude (World.instruments env s.label) s ready n started)
      (Poll.conclude (World.instruments env' s.label) s ready n started) := by
  intro w w' H
  have hnow : (World.instruments env' s.label).now w' = (World.instruments env s.label).now w :=
    H.now
  simp only [Poll.conclude, hnow]
  exact ⟨.returned rfl, record _ H⟩

/-- An attempt, and what it leads to: both waits end, or both go on.

**Proof sketch.** The attempts come to the same. Then both waits look at the clock, which shows the
same, and end, or go on with what is in step. -/
lemma pollRest (hcheck : InStep K Eq Eq check check') (started : Float) (n : Nat)
    {rest : Flow (World σ) (Poll.Outcome Float)} {rest' : Flow (World σ') (Poll.Outcome Float)}
    (hrest : InStep K Eq Eq rest rest') :
    InStep K Eq Eq
      (Poll.attempt (World.instruments env s.label) s check n >>= fun passed w =>
        if passed then Poll.conclude (World.instruments env s.label) s true n started w
        else if s.timeout ≤ (World.instruments env s.label).now w - started then
          Poll.conclude (World.instruments env s.label) s false n started w
        else rest w)
      (Poll.attempt (World.instruments env' s.label) s check' n >>= fun passed w =>
        if passed then Poll.conclude (World.instruments env' s.label) s true n started w
        else if s.timeout ≤ (World.instruments env' s.label).now w - started then
          Poll.conclude (World.instruments env' s.label) s false n started w
        else rest' w) := by
  refine (pollAttempt hcheck n).bind_eq fun passed w w' H => ?_
  have hnow : (World.instruments env' s.label).now w' = (World.instruments env s.label).now w :=
    H.now
  rw [hnow]
  split
  · exact conclude w w' H
  · split
    · exact conclude w w' H
    · exact hrest w w' H

/-- **Two waits** go in step if their checks do.

**Proof sketch.** By induction on the pauses that are observed. Both waits make an attempt in step,
and as their clocks agree, they go on or end together. -/
theorem poll (hK : K.Answers env env') (hcheck : InStep K Eq Eq check check') (horizon : Nat) :
    InStep K Eq Eq (World.poll env s check horizon) (World.poll env' s check' horizon) := by
  have hfrom (started : Float) (n : Nat) :
      InStep K Eq Eq (Poll.pollFrom (World.instruments env s.label) s check started horizon n)
        (Poll.pollFrom (World.instruments env' s.label) s check' started horizon n) := by
    induction horizon generalizing n with
    | zero =>
      rw [Poll.pollFrom_eq, Poll.pollFrom_eq]
      exact pollRest hcheck started (n + 1) fun _ _ H => ⟨.unfinished, H⟩
    | succ more ih =>
      rw [Poll.pollFrom_eq, Poll.pollFrom_eq]
      exact pollRest hcheck started (n + 1) ((pause hK s.period).bind_eq fun _ => ih (n + 1))
  intro w w' H
  cases hflaw : s.flaw? with
  | some e =>
    rw [Poll.poll_of_flaw env check horizon w hflaw, Poll.poll_of_flaw env' check' horizon w' hflaw]
    exact ⟨.raised rfl, H⟩
  | none =>
    rw [Poll.poll_of_flawless env check horizon w hflaw,
      Poll.poll_of_flawless env' check' horizon w' hflaw, H.now]
    exact hfrom _ 0 w w' H

end Wait

end InStep

end Flow

end NodeKeeper
