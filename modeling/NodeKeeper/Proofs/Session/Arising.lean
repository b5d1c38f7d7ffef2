import NodeKeeper.Proofs.Session.Callers
import NodeKeeper.Proofs.Session.Conduct

/-!
# Where events arise

What is in the history of a move was done by somebody: from outside, by a caller in its first turn
or after a load has ended, by a caller that has the answer to its own job, by a load that lands, or
by whoever used the cache while an answer was on its way.

## Main definitions

* `Session.Obtains` — the answer that a load lands with.
* `Session.Earns` — the answer that a caller settles its own job with.
* `Session.Plays` — the answer that is played in a turn.
* `Session.Arises` — who did what is in the history of a move.

## Main results

* `Session.arises_of_mem` — nothing else is in the history of a move.
* `Session.finished_of_earns` — a caller that has the answer to its own job finishes.
* `Session.exists_move_of_mem` — what is in the history of a run is in that of one of its moves.
-/

namespace NodeKeeper.Session

open Cache (Event)

variable {σ κ ν τ α φ δ : Type} [DecidableEq κ] [Keylike κ] [Add τ] [LE τ] [DecidableLE τ]

section Answers

variable (C : Client σ κ ν τ α φ δ)

/-- The answer that a load lands with if it takes its turn now: one that comes at once when it asks,
or one that it has waited for. -/
def Obtains (s : Session σ κ ν τ α φ δ) (f : Flight κ ν τ α δ) (a : Answer κ ν τ α) : Prop :=
  f.progress = .fresh ∧ (s.ask C f.job).1 = .now a ∨ f.progress = .freed a

/-- The answer that a caller settles its own job with if it takes its turn now, and the stage that
it finds then: one that it has waited for, or one that comes at once when it decides to see to the
job itself. -/
inductive Earns (s : Session σ κ ν τ α φ δ) (c : Nat) (a : Answer κ ν τ α) (job : δ) (phase : φ) :
    Stage σ κ ν τ → Prop
  | freed (hc : s.callers[c]? = some (.freed a job phase)) : Earns s c a job phase s.stage
  | first {p : φ} {st st' : Stage σ κ ν τ} (hc : s.callers[c]? = some (.fresh p))
      (hn : C.start p s.stage = (.errand job phase, st)) (ha : C.call job st = (.now a, st')) :
      Earns s c a job phase st'
  | later {r : Outcome ν} {p : φ} {st st' : Stage σ κ ν τ}
      (hc : s.callers[c]? = some (.answered r p))
      (hn : C.resume p r s.stage = (.errand job phase, st))
      (ha : C.call job st = (.now a, st')) : Earns s c a job phase st'

/-- The answer that is played if somebody takes its turn now. -/
def Plays (s : Session σ κ ν τ α φ δ) (a : Answer κ ν τ α) : Task → Prop
  | .caller c => ∃ job phase st, Earns C s c a job phase st
  | .load l => ∃ f, s.flights[l]? = some f ∧ Obtains C s f a
  | .deliver _ _ => False

variable {C}

/-- A caller that has the answer to its own job finishes with what it makes of it.

**Proof sketch.** The answer was waiting for the caller, or comes at once when it sets out to see to
the job. In each case it is settled in the same turn. -/
lemma finished_of_earns {s : Session σ κ ν τ α φ δ} {c : Nat} {a : Answer κ ν τ α} {job : δ}
    {phase : φ} {st : Stage σ κ ν τ} (h : Earns C s c a job phase st) :
    (s.turnCaller C c).callers[c]? = some (.finished (C.settle phase
      (C.conclude job a.outcome (play a st)).1 (C.conclude job a.outcome (play a st)).2).1) := by
  have hfollow {s : Session σ κ ν τ α φ δ} {x : Caller κ ν τ α φ δ} {st : Stage σ κ ν τ}
      (hc : s.callers[c]? = some x) (ha : C.call job s.stage = (.now a, st)) :
      (s.follow C c (.errand job phase)).callers[c]? = some (.finished (C.settle phase
        (C.conclude job a.outcome (play a st)).1 (C.conclude job a.outcome (play a st)).2).1) := by
    simp only [follow, ask, ha]
    exact callers_setCaller_self hc _
  cases h with
  | freed hc =>
    rw [turnCaller, hc]
    exact callers_setCaller_self hc _
  | first hc hn ha =>
    rw [turnCaller_of_fresh hc, hn]
    exact hfollow hc ha
  | later hc hn ha =>
    rw [turnCaller_of_answered hc, hn]
    exact hfollow hc ha

end Answers

/-! ## Events of a move -/

section Events

variable {C : Client σ κ ν τ α φ δ} (K : Conduct C)

/-- Who did what is in the history of a move. -/
inductive Arises (s : Session σ κ ν τ α φ δ) (e : Event κ ν τ) : Move σ κ ν τ α φ → Prop
  /-- It was done from outside. -/
  | edited {edit : Edit κ ν} (he : e ∈ edit.events s.stage.now) : Arises s e (.edit edit)
  /-- It was done while an answer was on its way. -/
  | played {t : Task} {a : Answer κ ν τ α} {now : τ} (ha : Plays C s a t)
      (he : e ∈ Edit.history now a.edits) : Arises s e (.turn t)
  | opened {c : Nat} {p : φ} (hc : s.callers[c]? = some (.fresh p)) (he : e ∈ K.opening p s.stage) :
      Arises s e (.turn (.caller c))
  | resumed {c : Nat} {r : Outcome ν} {p : φ} (hc : s.callers[c]? = some (.answered r p))
      (he : e ∈ K.resuming p r s.stage) : Arises s e (.turn (.caller c))
  /-- A caller settled its own job. -/
  | settled {c : Nat} {a : Answer κ ν τ α} {job : δ} {phase : φ} {st : Stage σ κ ν τ}
      (ha : Earns C s c a job phase st)
      (he : e ∈ K.settling phase (C.conclude job a.outcome (play a st)).1
        (C.conclude job a.outcome (play a st)).2) : Arises s e (.turn (.caller c))
  /-- A load landed. -/
  | landed {l : Nat} {f : Flight κ ν τ α δ} {v : Option ν} {now : τ}
      (hf : s.flights[l]? = some f) (he : e = .ended l (K.key f.job) v now) :
      Arises s e (.turn (.load l))

variable {K} {s : Session σ κ ν τ α φ δ} {e : Event κ ν τ}

/-- What is in the history of a caller that settles its own job arises in a turn of that caller: it
was played with the answer, or put in by the caller itself. -/
lemma arises_of_mem_settleHistory {c : Nat} {a : Answer κ ν τ α} {job : δ} {phase : φ}
    {s₁ : Session σ κ ν τ α φ δ} (ha : Earns C s c a job phase s₁.stage)
    (he : e ∈ settleHistory K s₁ job phase a) : Arises K s e (.turn (.caller c)) := by
  rcases List.mem_append.1 he with hsettled | hplayed
  · exact .settled ha hsettled
  · exact .played (t := .caller c) ⟨job, phase, _, ha⟩ hplayed

/-- What is in the history of the turn of a caller arises in that turn.

**Proof sketch.** The cases are those of the turn: it opens its request, resumes it, settles a job
of its own, or does nothing. -/
lemma arises_of_mem_callerHistory {c : Nat} (he : e ∈ callerHistory K s c) :
    Arises K s e (.turn (.caller c)) := by
  -- a turn that leads to a job which is answered at once
  have hfollow {next : Turn ν φ δ} {st : Stage σ κ ν τ}
      (hearns : ∀ job phase a st', next = .errand job phase → C.call job st = (.now a, st') →
        Earns C s c a job phase st')
      (he : e ∈ followHistory K { s with stage := st } next) :
      Arises K s e (.turn (.caller c)) := by
    cases next with
    | done r => exact absurd he List.not_mem_nil
    | wait l job phase => exact absurd he List.not_mem_nil
    | errand job phase =>
      simp only [followHistory, ask] at he
      rcases ha : C.call job st with ⟨a | gate, st'⟩
      · simp only [ha] at he
        exact arises_of_mem_settleHistory (hearns job phase a st' rfl ha) he
      · simp only [ha] at he
        exact absurd he List.not_mem_nil
  unfold callerHistory at he
  cases hc : s.callers[c]? with
  | none => exact absurd he (by simp [hc])
  | some x =>
    cases x with
    | fresh p =>
      simp only [hc] at he
      rcases List.mem_append.1 he with hlast | hfirst
      · refine hfollow (fun job phase a st' hn ha => ?_) hlast
        exact .first hc (Prod.ext hn rfl) ha
      · exact .opened hc hfirst
    | answered r p =>
      simp only [hc] at he
      rcases List.mem_append.1 he with hlast | hfirst
      · refine hfollow (fun job phase a st' hn ha => ?_) hlast
        exact .later hc (Prod.ext hn rfl) ha
      · exact .resumed hc hfirst
    | freed a job phase =>
      simp only [hc] at he
      exact arises_of_mem_settleHistory (.freed hc) he
    | waiting _ _ | held _ _ | cancelled | finished _ => exact absurd he (by simp [hc])

/-- What is in the history of the turn of a load arises in that turn, as part of its landing.

**Proof sketch.** The turn has a history only if the load lands in it, with an answer that comes at
once or that was waiting. The end of the load is the last event of that; the others were played with
the answer. -/
lemma arises_of_mem_loadHistory {l : Nat} (he : e ∈ loadHistory K s l) :
    Arises K s e (.turn (.load l)) := by
  have hland {f : Flight κ ν τ α δ} (hf : s.flights[l]? = some f) {a : Answer κ ν τ α}
      (ha : Obtains C s f a) {s₁ : Session σ κ ν τ α φ δ} (he : e ∈ landHistory K s₁ l f.job a) :
      Arises K s e (.turn (.load l)) := by
    rcases List.mem_cons.1 he with hended | hplayed
    · exact .landed hf hended
    · exact .played (t := .load l) ⟨f, hf, ha⟩ hplayed
  unfold loadHistory at he
  cases hf : s.flights[l]? with
  | none => exact absurd he (by simp [hf])
  | some f =>
    simp only [hf] at he
    cases hp : f.progress with
    | fresh =>
      simp only [hp] at he
      rcases ha : s.ask C f.job with ⟨a | gate, s'⟩
      · simp only [ha] at he
        exact hland hf (.inl ⟨hp, by rw [ha]⟩) he
      · exact absurd he (by simp [ha])
    | freed a =>
      simp only [hp] at he
      exact hland hf (.inr hp) he
    | held | landed _ => exact absurd he (by simp [hp])

/-- **Where an event arises.** What is in the history of a move was done by somebody. -/
theorem arises_of_mem {m : Move σ κ ν τ α φ} (he : e ∈ events K s m) : Arises K s e m := by
  cases m with
  | edit edit => exact .edited he
  | turn t =>
    cases t with
    | caller c => exact arises_of_mem_callerHistory he
    | load l => exact arises_of_mem_loadHistory he
    | deliver l c => exact absurd he List.not_mem_nil
  | spawn _ | cancel _ | release _ _ | elapse _ | stir _ | schedule _ =>
    exact absurd he List.not_mem_nil

/-- What is in the history of a run is in the history of one of its moves. -/
lemma exists_move_of_mem {ms : List (Move σ κ ν τ α φ)} (he : e ∈ history K s ms) :
    ∃ ms₁ m ms₂, ms = ms₁ ++ m :: ms₂ ∧ e ∈ events K (s.after C ms₁) m := by
  induction ms generalizing s with
  | nil => exact absurd he List.not_mem_nil
  | cons m ms ih =>
    rcases List.mem_append.1 he with hlater | hmove
    · obtain ⟨ms₁, m', ms₂, rfl, hm'⟩ := ih hlater
      exact ⟨m :: ms₁, m', ms₂, rfl, hm'⟩
    · exact ⟨[], m, ms, rfl, hmove⟩

end Events

end NodeKeeper.Session
