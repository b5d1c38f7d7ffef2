import NodeKeeper.Proofs.Session.Callers
import NodeKeeper.Proofs.Session.Loads
import NodeKeeper.Proofs.Session.Valid

/-!
# Callers and the loads that they join

A load remembers who joined it. A caller waits for a load that it joined, and what it gets in the
end is the outcome of that load. A load never forgets anyone, and once it has landed nothing happens
to it any more.

## Main definitions

* `Flight.Continues`, `Session.Continued` — what becomes of a load, and of all loads.
* `Session.Earned` — an outcome is that of a load that a caller joined.
* `Session.Linked` — who waits has joined, and who was answered has earned the answer.

## Main results

* `Session.continued_after` — what becomes of the loads of a session in any run.
* `Session.Linked.after` — the callers of a session are linked to its loads after every run.
-/

namespace NodeKeeper

/-- What becomes of a load: its job stays the same, those who joined it stay, and if it has landed
that is the end of it. -/
structure Flight.Continues {κ ν τ α δ : Type} (f f' : Flight κ ν τ α δ) : Prop where
  job : f'.job = f.job
  waiters : f.waiters <+: f'.waiters
  landed : ∀ o, f.progress = .landed o → f'.progress = .landed o

namespace Flight.Continues

variable {κ ν τ α δ : Type} {f f' f'' : Flight κ ν τ α δ}

/-- A load continues itself. -/
lemma refl (f : Flight κ ν τ α δ) : f.Continues f := ⟨rfl, List.prefix_rfl, fun _ h => h⟩

/-- What continues a load that continues another one continues that one. -/
lemma trans (h : f.Continues f') (h' : f'.Continues f'') : f.Continues f'' where
  job := h'.job.trans h.job
  waiters := h.waiters.trans h'.waiters
  landed := fun o ho => h'.landed o (h.landed o ho)

end Flight.Continues

namespace Session

variable {σ κ ν τ α φ δ : Type}

/-- What becomes of a list of loads: each continues, and others may be added. -/
def Continued (fs fs' : List (Flight κ ν τ α δ)) : Prop :=
  ∀ (l : Nat) f, fs[l]? = some f → ∃ f', fs'[l]? = some f' ∧ f.Continues f'

/-! ## Loads -/

namespace Continued

variable {fs fs' fs'' : List (Flight κ ν τ α δ)}

/-- A list of loads continues itself. -/
lemma refl (fs : List (Flight κ ν τ α δ)) : Continued fs fs :=
  fun _ f hf => ⟨f, hf, .refl f⟩

/-- What continues a list that continues another one continues that one. -/
lemma trans (h : Continued fs fs') (h' : Continued fs' fs'') : Continued fs fs'' := by
  intro l f hf
  obtain ⟨f', hf', hc⟩ := h l f hf
  obtain ⟨f'', hf'', hc'⟩ := h' l f' hf'
  exact ⟨f'', hf'', hc.trans hc'⟩

/-- The loads become no fewer. -/
lemma length_le (h : Continued fs fs') : fs.length ≤ fs'.length := by
  by_contra hlt
  have hlast : fs'.length < fs.length := Nat.lt_of_not_le hlt
  obtain ⟨f', hf', -⟩ := h fs'.length _ (List.getElem?_eq_getElem hlast)
  rw [List.getElem?_eq_none (Nat.le_refl _)] at hf'
  exact absurd hf' (by simp)

end Continued

section Moves

variable [DecidableEq κ] [Keylike κ] [Add τ] [LE τ] [DecidableLE τ]
variable {C : Client σ κ ν τ α φ δ} {s : Session σ κ ν τ α φ δ}

/-- What becomes of the loads of a session in one move.

**Proof sketch.** The cases are those of `flightStep_move`. A load keeps its job, gets waiters at
the end, and does not move on once it has landed. -/
lemma continued_move (m : Move σ κ ν τ α φ) : Continued s.flights (s.move C m).flights := by
  intro l f hf
  have hstep := flightStep_move (C := C) (s := s) l m
  rw [hf] at hstep
  generalize (s.move C m).flights[l]? = y at hstep ⊢
  have hunlanded {p : Progress κ ν τ α} (hp : f.progress.hasLanded = false) :
      f.Continues { f with progress := p } :=
    ⟨rfl, List.prefix_rfl, fun o ho => absurd hp (by simp [ho, Progress.hasLanded])⟩
  cases hstep with
  | same => exact ⟨f, rfl, .refl f⟩
  | joined c => exact ⟨_, rfl, rfl, List.prefix_append _ _, fun _ h => h⟩
  | freed gate a hheld => exact ⟨_, rfl, hunlanded (by rw [hheld]; rfl)⟩
  | held hfresh => exact ⟨_, rfl, hunlanded (by rw [hfresh]; rfl)⟩
  | landed hp r => exact ⟨_, rfl, hunlanded hp⟩

/-- **What becomes of the loads** of a session in any run. -/
theorem continued_after (ms : List (Move σ κ ν τ α φ)) :
    Continued s.flights (s.after C ms).flights := by
  induction ms generalizing s with
  | nil => exact .refl _
  | cons m ms ih => exact (continued_move m).trans ih

end Moves

/-! ## Callers -/

/-- The outcome is that of a load that the caller joined. -/
def Earned (fs : List (Flight κ ν τ α δ)) (c : Nat) (r : Outcome ν) : Prop :=
  ∃ (l : Nat) (f : Flight κ ν τ α δ) (o : Outcome ν),
    fs[l]? = some f ∧ c ∈ f.waiters ∧ f.progress = .landed o ∧ r = forWaiter o

/-- An outcome that was earned stays earned: the load that came to it stays landed, and keeps those
who have joined it. -/
lemma Continued.earned {fs fs' : List (Flight κ ν τ α δ)} (h : Continued fs fs') {c : Nat}
    {r : Outcome ν} (hr : Earned fs c r) : Earned fs' c r := by
  obtain ⟨l, f, o, hf, hm, hp, hr⟩ := hr
  obtain ⟨f', hf', hc⟩ := h l f hf
  exact ⟨l, f', o, hf', hc.waiters.subset hm, hc.landed o hp, hr⟩

/-- Those who wait get a value only if the load came to it. -/
lemma eq_ok_of_forWaiter {o : Outcome ν} {v : ν} (h : forWaiter o = .ok v) : o = .ok v := by
  cases o with
  | ok w => exact h
  | error e =>
    simp only [forWaiter] at h
    split at h <;> exact absurd h (by simp)

/-- A value that was earned is the one that the load came to. -/
lemma Earned.exists_landed {fs : List (Flight κ ν τ α δ)} {c : Nat} {v : ν}
    (h : Earned fs c (.ok v)) : ∃ (l : Nat) (f : Flight κ ν τ α δ), fs[l]? = some f ∧
      c ∈ f.waiters ∧ f.progress = .landed (.ok v) := by
  obtain ⟨l, f, o, hf, hm, hp, ho⟩ := h
  obtain rfl := eq_ok_of_forWaiter ho.symm
  exact ⟨l, f, hf, hm, hp⟩

/-- Who waits for a load has joined it, and who was answered got the outcome of a load that it
joined. -/
structure Linked (s : Session σ κ ν τ α φ δ) : Prop where
  waiting : ∀ (c l : Nat) phase, s.callers[c]? = some (.waiting l phase) →
    ∃ f, s.flights[l]? = some f ∧ c ∈ f.waiters
  answered : ∀ (c : Nat) r phase, s.callers[c]? = some (.answered r phase) → Earned s.flights c r

section Turns

variable [DecidableEq κ] [Keylike κ] [Add τ] [LE τ] [DecidableLE τ]
variable {C : Client σ κ ν τ α φ δ} {s : Session σ κ ν τ α φ δ}

omit [DecidableEq κ] [Keylike κ] [Add τ] [LE τ] [DecidableLE τ] in
/-- Who joins a load is among those who joined it. -/
lemma mem_waiters_join {l : Nat} (hl : l < s.flights.length) (c : Nat) (phase : φ) :
    ∃ f, (s.join l c phase).flights[l]? = some f ∧ c ∈ f.waiters :=
  ⟨{ s.flights[l] with waiters := s.flights[l].waiters ++ [c] },
    by simp [join, List.getElem?_eq_getElem hl], by simp⟩

/-- What a caller decided to wait for is a load that it joins.

**Proof sketch.** A load that is joined is there, since it is shared; one that is started has the
next number, and is joined at once. -/
lemma mem_waiters_follow {key : δ → κ} (hv : (s.ledger key).Valid) {l : Nat} {job : Option δ}
    (h : Available s.stage.cache l job) (c : Nat) (phase : φ) (stage : Stage σ κ ν τ) :
    ∃ f, (({ s with stage } : Session _ _ _ _ _ _ _).follow C c (.wait l job phase)).flights[l]? =
      some f ∧ c ∈ f.waiters := by
  cases job with
  | none =>
    obtain ⟨k, hk⟩ := h
    obtain ⟨f, hf, -⟩ := exists_shared hv hk
    exact mem_waiters_join (s := { s with stage }) (List.getElem?_eq_some_iff.1 hf).1 c phase
  | some job =>
    obtain rfl : l = s.flights.length := Eq.trans h (nextLoad_eq hv)
    refine mem_waiters_join (s := ({ s with stage } : Session _ _ _ _ _ _ _).startFlight _ job)
      ?_ c phase
    simp [startFlight, enqueue]

end Turns

namespace Linked

variable {s : Session σ κ ν τ α φ δ}

/-- A session that nobody has entered. -/
lemma opened (now : τ) (ttl : Option τ) (name : String) (rest : σ) :
    Linked (opened now ttl name rest : Session σ κ ν τ α φ δ) where
  waiting := fun _ _ _ h => absurd h (by simp [Session.opened])
  answered := fun _ _ _ h => absurd h (by simp [Session.opened])

variable [DecidableEq κ] [Keylike κ] [Add τ] [LE τ] [DecidableLE τ]
variable {C : Client σ κ ν τ α φ δ}

/-- **One move** keeps the callers of a session linked to its loads.

**Proof sketch.** Who waits for a load after the move waited for it before, or joined it in this
move. Who was answered got the outcome of the load that it waited for, and hence had joined. -/
theorem move (H : Linked s) (K : Conduct C) (hC : Shares C) (hv : (s.ledger K.key).Valid)
    (m : Move σ κ ν τ α φ) : Linked (s.move C m) where
  waiting := by
    intro c l phase h
    have hstep := callerStep_move (C := C) (s := s) c m
    rw [h] at hstep
    generalize hx : s.callers[c]? = x at hstep ⊢
    cases hstep with
    | same =>
      obtain ⟨f, hf, hm⟩ := H.waiting c l phase hx
      obtain ⟨f', hf', hc⟩ := continued_move (C := C) (s := s) m l f hf
      exact ⟨f', hf', hc.waiters.subset hm⟩
    | began phase' hlead =>
      obtain ⟨job, hnext⟩ := hlead.eq_wait
      rw [Session.move, turn, turnCaller_of_fresh hx, hnext]
      exact mem_waiters_follow hv (hC.start _ _ _ _ _ hnext) c phase _
    | resumed r phase' hlead =>
      obtain ⟨job, hnext⟩ := hlead.eq_wait
      rw [Session.move, turn, turnCaller_of_answered hx, hnext]
      exact mem_waiters_follow hv (hC.resume _ _ _ _ _ _ hnext) c phase _
  answered := by
    intro c r phase h
    have hstep := callerStep_move (C := C) (s := s) c m
    have hcont := continued_move (C := C) (s := s) m
    rw [h] at hstep
    generalize hx : s.callers[c]? = x at hstep ⊢
    cases hstep with
    | same => exact hcont.earned (H.answered c r phase hx)
    | @delivered l o _ hl =>
      obtain ⟨f, hf, hp⟩ := Option.map_eq_some_iff.1 hl
      obtain ⟨g, hg, hm⟩ := H.waiting c l phase hx
      obtain rfl : f = g := Option.some.inj (hf.symm.trans hg)
      exact hcont.earned ⟨l, f, o, hf, hm, hp, rfl⟩
    | began phase' hlead => exact absurd hlead Turn.LeadsTo.ne_answered
    | resumed r phase' hlead => exact absurd hlead Turn.LeadsTo.ne_answered

/-- **After every run** of a session, its callers are linked to its loads. -/
theorem after (H : Linked s) (K : Conduct C) (hC : Shares C) (hv : (s.ledger K.key).Valid)
    (ms : List (Move σ κ ν τ α φ)) : Linked (s.after C ms) := by
  induction ms generalizing s with
  | nil => exact H
  | cons m ms ih => exact ih (H.move K hC hv m) (valid_move K hv m)

/-- However a session goes along, who waits for a load has joined it, and who was answered got the
outcome of a load that it joined. -/
lemma along (H : Linked s) (K : Conduct C) (hC : Shares C) (hv : (s.ledger K.key).Valid)
    (ws : List (Leg σ κ ν τ α φ)) : Linked (s.along C ws) := by
  obtain ⟨ms, hms⟩ := exists_along_eq_after C s ws
  rw [hms]
  exact H.after K hC hv ms

end Linked

end Session

end NodeKeeper
