import NodeKeeper.Proofs.Session.Joining

/-!
# What callers get that joined a load

Callers that pass on what a load comes to get the outcome of the load that they joined, whatever
else goes on, as long as they are not cancelled themselves. All callers that joined the same load
therefore get the same.

## Main definitions

* `Session.Relays` — callers pass on what a load comes to.
* `Session.Answered` — a caller has got an outcome.
* `Session.Entitled` — a caller waits for the load that it joined, or has got its outcome.
* `Session.HasJoined` — a caller has joined a load in the course of a session.

## Main results

* `Session.Entitled.along` — whatever happens, a caller stays entitled to the outcome of its load.
-/

namespace NodeKeeper.Session

variable {σ κ ν τ α φ δ : Type}

/-- Callers pass on what a load comes to. -/
def Relays [Add τ] [LE τ] [DecidableLE τ] [DecidableEq κ] [Keylike κ] (C : Client σ κ ν τ α φ δ) :
    Prop :=
  ∀ phase r st, C.resume phase r st = (.done r, st)

/-- The caller has got an outcome, which it passes on. -/
def Answered (c : Nat) (phase : φ) (o : Outcome ν) (s : Session σ κ ν τ α φ δ) : Prop :=
  s.callers[c]? = some (.answered (forWaiter o) phase) ∨
    s.callers[c]? = some (.finished (forWaiter o))

/-- The caller joined the load. It waits for it, or has got its outcome. -/
def Entitled (c l : Nat) (phase : φ) (s : Session σ κ ν τ α φ δ) : Prop :=
  ∃ f, s.flights[l]? = some f ∧ c ∈ f.waiters ∧
    (s.callers[c]? = some (.waiting l phase) ∨ ∃ o, f.progress = .landed o ∧ Answered c phase o s)

namespace Entitled

variable {s : Session σ κ ν τ α φ δ} {c d l : Nat} {phase phase' : φ} {r r' : Outcome ν}

/-- Who joined a load and has finished has finished with the outcome of the load. -/
lemma exists_landed (H : Entitled c l phase s) (hr : s.callers[c]? = some (.finished r)) :
    ∃ f o, s.flights[l]? = some f ∧ f.progress = .landed o ∧ r = forWaiter o := by
  obtain ⟨f, hf, -, hwaiting | ⟨o, ho, hanswered | hfinished⟩⟩ := H
  · exact absurd (hr.symm.trans hwaiting) (by simp)
  · exact absurd (hr.symm.trans hanswered) (by simp)
  · exact ⟨f, o, hf, ho, Caller.finished.inj (Option.some.inj (hr.symm.trans hfinished))⟩

/-- All who joined a load and have finished have finished with the same. -/
lemma eq_of_finished (hc : Entitled c l phase s) (hd : Entitled d l phase' s)
    (hr : s.callers[c]? = some (.finished r)) (hr' : s.callers[d]? = some (.finished r')) :
    r = r' := by
  obtain ⟨f, o, hf, ho, rfl⟩ := hc.exists_landed hr
  obtain ⟨g, p, hg, hp, rfl⟩ := hd.exists_landed hr'
  obtain rfl := Option.some.inj (hf.symm.trans hg)
  rw [Progress.landed.inj (ho.symm.trans hp)]

end Entitled

variable [DecidableEq κ] [Keylike κ] [Add τ] [LE τ] [DecidableLE τ]
variable {C : Client σ κ ν τ α φ δ} {s : Session σ κ ν τ α φ δ} {c l : Nat} {phase : φ}

/-- Who has got an outcome keeps it.

**Proof sketch.** The cases are those of `callerStep_move`. One that was answered finishes with this
outcome, and one that has finished stays so. -/
lemma Answered.move {o : Outcome ν} (H : Answered c phase o s) (hC : Relays C)
    {m : Move σ κ ν τ α φ} (hm : m ≠ .cancel c) : Answered c phase o (s.move C m) := by
  rcases H with hanswered | hfinished
  · have hstep := callerStep_move (C := C) (s := s) c m
    rw [hanswered] at hstep
    unfold Answered
    generalize (s.move C m).callers[c]? = y at hstep ⊢
    cases hstep with
    | same => exact Or.inl rfl
    | cancelled _ => exact absurd rfl hm
    | resumed r phase hlead =>
      rw [hC] at hlead
      exact Or.inr (congrArg some hlead)
  · exact Or.inr (finished_move hfinished m)

/-- **One move** leaves a caller entitled to the outcome of its load.

**Proof sketch.** The load goes on with the same waiters. A caller that waits for it is answered by
nothing but its delivery, and gives up only if it is cancelled, which it is not; and an outcome that
was delivered is kept. -/
theorem Entitled.move (H : Entitled c l phase s) (hC : Relays C) {m : Move σ κ ν τ α φ}
    (hm : m ≠ .cancel c) : Entitled c l phase (s.move C m) := by
  obtain ⟨f, hf, hmem, hcaller⟩ := H
  obtain ⟨f', hf', hcont⟩ := continued_move (C := C) (s := s) m l f hf
  refine ⟨f', hf', hcont.waiters.subset hmem, ?_⟩
  rcases hcaller with hwaiting | ⟨o, ho, hanswered⟩
  · have hstep := callerStep_move (C := C) (s := s) c m
    rw [hwaiting] at hstep
    unfold Answered
    generalize (s.move C m).callers[c]? = y at hstep ⊢
    cases hstep with
    | same => exact Or.inl rfl
    | cancelled _ => exact absurd rfl hm
    | @delivered _ o _ hl =>
      obtain ⟨g, hg, ho⟩ := Option.map_eq_some_iff.1 hl
      obtain rfl : f = g := Option.some.inj (hf.symm.trans hg)
      exact Or.inr ⟨o, hcont.landed o ho, Or.inl rfl⟩
  · exact Or.inr ⟨o, hcont.landed o ho, hanswered.move hC hm⟩

/-- A pass leaves everybody entitled. -/
lemma Entitled.pass (H : Entitled c l phase s) (hC : Relays C) : Entitled c l phase (s.pass C) :=
  pass_of_turn C H fun _ t h => h.move hC (m := .turn t) (by simp)

/-- **Whatever happens**, a caller that is not cancelled stays entitled to the outcome of its
load. -/
theorem Entitled.along (H : Entitled c l phase s) (hC : Relays C) {ws : List (Leg σ κ ν τ α φ)}
    (hw : .move (.cancel c) ∉ ws) : Entitled c l phase (s.along C ws) := by
  induction ws generalizing s with
  | nil => exact H
  | cons w ws ih =>
    rw [List.mem_cons, not_or] at hw
    cases w with
    | move m => exact ih (H.move hC fun hm => hw.1 (by rw [hm])) hw.2
    | pass => exact ih (H.pass hC) hw.2

/-! ## Joining -/

variable (C) in
/-- In these legs, the caller joined the load, and it has not been cancelled since. -/
def HasJoined (s : Session σ κ ν τ α φ δ) (ws : List (Leg σ κ ν τ α φ)) (c l : Nat) : Prop :=
  ∃ ws₁ ws₂ phase, ws = ws₁ ++ ws₂ ∧ (s.along C ws₁).callers[c]? = some (.waiting l phase) ∧
    .move (.cancel c) ∉ ws₂

/-- Who has joined a load is entitled to its outcome. -/
lemma HasJoined.entitled {ws : List (Leg σ κ ν τ α φ)} (H : HasJoined C s ws c l) (hR : Relays C)
    (hl : ∀ ws, Linked (s.along C ws)) : ∃ phase, Entitled c l phase (s.along C ws) := by
  obtain ⟨ws₁, ws₂, phase, rfl, hwaiting, hcancel⟩ := H
  obtain ⟨f, hf, hmem⟩ := (hl ws₁).waiting c l phase hwaiting
  have he : Entitled c l phase (s.along C ws₁) := ⟨f, hf, hmem, Or.inl hwaiting⟩
  rw [along_append]
  exact ⟨phase, he.along hR hcancel⟩

end NodeKeeper.Session
