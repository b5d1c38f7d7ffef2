import Mathlib.Tactic.Lemma
import NodeKeeper.Session.Basic

/-!
# Runs of a session

What happens to a session comes from outside or is one of its turns, and it may come in any order. A
*run* is a list of such moves. The passes that a session takes on its own are among the runs, so
that whatever holds after every run holds however the turns are scheduled.

## Main definitions

* `Session.Move`, `Session.move` — one thing that can happen to a session.
* `Session.after` — a session after a run.
* `Session.Forward` — the clock is never turned back in a run.
* `Session.opened` — a session in which nothing has happened yet.
* `Session.Leg`, `Session.along` — moves and passes, one after the other.

## Main results

* `Session.exists_turning` — the move in which something comes about.
* `Session.pass_eq_after`, `Session.run_eq_after` — passes are runs.
* `Session.exists_along_eq_after` — so are legs.
-/

namespace NodeKeeper.Session

/-- What can happen to a session. -/
inductive Move (σ κ ν τ α φ : Type) where
  | spawn (phase : φ)
  | cancel (c : Nat)
  | release (gate : String) (a : Answer κ ν τ α)
  /-- Somebody outside does something to the cache, or looks at it. -/
  | edit (e : Edit κ ν)
  /-- The clock goes to another instant. -/
  | elapse (later : τ)
  /-- The rest of the world changes. -/
  | stir (f : σ → σ)
  /-- Other turns become due, or the same ones in another order. -/
  | schedule (queue : List Task)
  | turn (t : Task)

/-- Something that happens to a session, or a pass in which all turns are taken that are due. -/
inductive Leg (σ κ ν τ α φ : Type) where
  | move (m : Move σ κ ν τ α φ)
  | pass

variable {σ κ ν τ α φ δ : Type}

/-- What freeing one after the other keeps, a gate keeps that opens. -/
lemma release_of_free {P : Session σ κ ν τ α φ δ → Prop} {s : Session σ κ ν τ α φ δ}
    {a : Answer κ ν τ α} (H : P s) (hgates : ∀ s gates, P s → P { s with gates })
    (hfree : ∀ s t, P s → P (free a s t)) (gate : String) : P (s.release gate a).2 := by
  unfold release
  split
  · exact H
  · exact List.foldlRecOn _ _ (hgates _ _ H) fun s h t _ => hfree s t h

/-- A session in which nothing has happened yet. -/
def opened (now : τ) (ttl : Option τ) (name : String) (rest : σ) : Session σ κ ν τ α φ δ where
  stage := { now, cache := { ttl, name }, rest }

variable [Add τ] [LE τ] [DecidableLE τ] [DecidableEq κ] [Keylike κ]
variable (C : Client σ κ ν τ α φ δ)

/-- One thing happens to a session. -/
def move (s : Session σ κ ν τ α φ δ) : Move σ κ ν τ α φ → Session σ κ ν τ α φ δ
  | .spawn phase => (s.spawn phase).2
  | .cancel c => (s.cancel c).2
  | .release gate a => (s.release gate a).2
  | .edit e => { s with stage := s.stage.apply e }
  | .elapse later => { s with stage := { s.stage with now := later } }
  | .stir f => { s with stage := { s.stage with rest := f s.stage.rest } }
  | .schedule queue => { s with queue }
  | .turn t => s.turn C t

/-- A session after a run. -/
def after (s : Session σ κ ν τ α φ δ) (ms : List (Move σ κ ν τ α φ)) : Session σ κ ν τ α φ δ :=
  ms.foldl (move C) s

/-- The clock is never turned back in a run. -/
def Forward (s : Session σ κ ν τ α φ δ) : List (Move σ κ ν τ α φ) → Prop
  | [] => True
  | m :: ms =>
    (s.stage.now = (s.move C m).stage.now ∨ s.stage.now ≤ (s.move C m).stage.now) ∧
      Forward (s.move C m) ms

/-- Whether the clock is turned back in a run can be found out. -/
instance decidableForward [DecidableEq τ] (s : Session σ κ ν τ α φ δ) :
    (ms : List (Move σ κ ν τ α φ)) → Decidable (Forward C s ms)
  | [] => isTrue trivial
  | m :: ms =>
    have := decidableForward (s.move C m) ms
    inferInstanceAs (Decidable ((_ ∨ _) ∧ _))

/-- After no moves a session is as it was. -/
@[simp] lemma after_nil (s : Session σ κ ν τ α φ δ) : s.after C [] = s := rfl

/-- A run is its first move and then the run of the others. -/
@[simp] lemma after_cons (s : Session σ κ ν τ α φ δ) (m : Move σ κ ν τ α φ)
    (ms : List (Move σ κ ν τ α φ)) : s.after C (m :: ms) = (s.move C m).after C ms := rfl

/-- A run is its beginning and then its end. -/
lemma after_append (s : Session σ κ ν τ α φ δ) (ms ms' : List (Move σ κ ν τ α φ)) :
    s.after C (ms ++ ms') = (s.after C ms).after C ms' :=
  List.foldl_append

variable {C} in
/-- The clock is turned back neither in a run nor in the one that follows. -/
lemma forward_append {s : Session σ κ ν τ α φ δ} {ms ms' : List (Move σ κ ν τ α φ)} :
    Forward C s (ms ++ ms') ↔ Forward C s ms ∧ Forward C (s.after C ms) ms' := by
  induction ms generalizing s with
  | nil => simp [Forward]
  | cons m ms ih => rw [List.cons_append, Forward, Forward, ih, and_assoc, after_cons]

variable {C} in
/-- What comes about in a run comes about in one of its moves. -/
lemma exists_turning {P : Session σ κ ν τ α φ δ → Prop} {s : Session σ κ ν τ α φ δ}
    {ms : List (Move σ κ ν τ α φ)} (hs : ¬ P s) (h : P (s.after C ms)) :
    ∃ ms₁ m ms₂, ms = ms₁ ++ m :: ms₂ ∧ ¬ P (s.after C ms₁) ∧ P ((s.after C ms₁).move C m) := by
  induction ms generalizing s with
  | nil => exact absurd h hs
  | cons m ms ih =>
    by_cases hm : P (s.move C m)
    · exact ⟨[], m, ms, rfl, hs, hm⟩
    · obtain ⟨ms₁, m', ms₂, rfl, hbefore, hturn⟩ := ih hm h
      exact ⟨m :: ms₁, m', ms₂, rfl, hbefore, hturn⟩

variable {C} in
/-- A caller that sees to a job itself asks outside for it, once, and has finished then, or waits at
a gate. No load, no other caller and no turn that is due is touched. -/
lemma follow_errand (s : Session σ κ ν τ α φ δ) (c : Nat) (job : δ) (phase : φ) :
    (∃ r stage, s.follow C c (.errand job phase) =
      { s with stage, callers := s.callers.set c (.finished r), calls := s.calls ++ [job] }) ∨
    ∃ gates stage, s.follow C c (.errand job phase) =
      { s with
        stage
        gates
        callers := s.callers.set c (.held job phase)
        calls := s.calls ++ [job] } := by
  simp only [follow, ask]
  split
  · next h =>
    obtain ⟨-, rfl⟩ := Prod.mk.inj h
    exact Or.inl ⟨_, _, rfl⟩
  · next h =>
    obtain ⟨-, rfl⟩ := Prod.mk.inj h
    exact Or.inr ⟨_, _, rfl⟩

/-! ## Passes -/

/-- A pass takes the turns that are due. -/
lemma pass_eq_after (s : Session σ κ ν τ α φ δ) :
    s.pass C = s.after C (.schedule [] :: s.queue.map .turn) := by
  rw [pass, after, List.foldl_cons, List.foldl_map]
  rfl

/-- What every turn keeps, a pass keeps. -/
lemma pass_of_turn {P : Session σ κ ν τ α φ δ → Prop} {s : Session σ κ ν τ α φ δ}
    (H : P { s with queue := [] }) (hturn : ∀ s t, P s → P (s.turn C t)) : P (s.pass C) :=
  List.foldlRecOn _ _ H fun s h t _ => hturn s t h

/-- Any number of passes is a run. -/
theorem run_eq_after (passes : Nat) (s : Session σ κ ν τ α φ δ) :
    ∃ ms, run C passes s = s.after C ms := by
  induction passes generalizing s with
  | zero => exact ⟨[], rfl⟩
  | succ passes ih =>
    rw [run]
    split
    · exact ⟨[], rfl⟩
    · obtain ⟨ms, hms⟩ := ih (s.pass C)
      exact ⟨_, by rw [hms, pass_eq_after, ← after_append]⟩

/-! ## Legs -/

/-- What a leg does to a session. -/
def leg (s : Session σ κ ν τ α φ δ) : Leg σ κ ν τ α φ → Session σ κ ν τ α φ δ
  | .move m => s.move C m
  | .pass => s.pass C

/-- A session after any number of legs. -/
def along (s : Session σ κ ν τ α φ δ) (ws : List (Leg σ κ ν τ α φ)) : Session σ κ ν τ α φ δ :=
  ws.foldl (leg C) s

/-- What happens to a session leg by leg is what happens in the first legs, and then in the
others. -/
lemma along_append (s : Session σ κ ν τ α φ δ) (ws ws' : List (Leg σ κ ν τ α φ)) :
    s.along C (ws ++ ws') = (s.along C ws).along C ws' :=
  List.foldl_append

/-- Legs are runs.

**Proof sketch.** The induction is on the legs. A pass is a run by `pass_eq_after`. -/
theorem exists_along_eq_after (s : Session σ κ ν τ α φ δ) (ws : List (Leg σ κ ν τ α φ)) :
    ∃ ms, s.along C ws = s.after C ms := by
  induction ws generalizing s with
  | nil => exact ⟨[], rfl⟩
  | cons w ws ih =>
    obtain ⟨ms, hms⟩ := ih (s.leg C w)
    cases w with
    | move m => exact ⟨m :: ms, hms⟩
    | pass =>
      refine ⟨.schedule [] :: s.queue.map .turn ++ ms, ?_⟩
      rw [after_append, ← pass_eq_after]
      exact hms

end NodeKeeper.Session
