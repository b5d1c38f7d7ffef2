import Mathlib.Data.List.Basic
import NodeKeeper.Proofs.Session.Loads

/-!
# The calls of a session

A load asks outside for what its job needs in its first turn, and never again. As long as the
callers leave it to the loads to do so, the calls of a session are those of the loads that have had
their first turn.

## Main definitions

* `Session.called` — the jobs of the loads that have had their first turn.
* `Session.Paid` — the calls that were made are those of these loads.

## Main results

* `Session.calls_move`, `Session.called_turnCaller`, `Session.calls_turnLoad` — what the moves of a
  session do to these.
* `Session.Paid.after` — after every run, each load has called at most once, and nobody else has.
-/

namespace NodeKeeper

/-- The load has had its first turn. -/
def Flight.hasCalled {κ ν τ α δ : Type} (f : Flight κ ν τ α δ) : Bool :=
  match f.progress with
  | .fresh => false
  | .held | .freed _ | .landed _ => true

namespace Session

variable {σ κ ν τ α φ δ : Type}

/-- The jobs of the loads that have had their first turn. -/
def called (fs : List (Flight κ ν τ α δ)) : List δ := (fs.filter Flight.hasCalled).map Flight.job

/-- The calls that were made are those of the loads that have had their first turn, one for each. -/
def Paid (s : Session σ κ ν τ α φ δ) : Prop := s.calls.Perm (called s.flights)

/-! ## Flights -/

/-- A change of a flight that keeps its job, and whether it has called.

**Proof sketch.** The induction is on the loads. -/
lemma called_modify {g : Flight κ ν τ α δ → Flight κ ν τ α δ} (fs : List (Flight κ ν τ α δ))
    (l : Nat) (h : ∀ f, fs[l]? = some f → (g f).hasCalled = f.hasCalled ∧ (g f).job = f.job) :
    called (fs.modify l g) = called fs := by
  induction fs generalizing l with
  | nil => simp [called]
  | cons f fs ih =>
    cases l with
    | zero =>
      obtain ⟨hc, hj⟩ := h f rfl
      by_cases hf : f.hasCalled <;> simp [called, hc, hj, hf]
    | succ l =>
      have htail := ih l fun f hf => h f hf
      by_cases hf : f.hasCalled <;> simpa [called, hf] using htail

/-- A load calls for the first time.

**Proof sketch.** The induction is on the loads. The job of the load that calls is added where the
load stands, and so in another order than at the end. -/
lemma called_modify_perm {g : Flight κ ν τ α δ → Flight κ ν τ α δ} {fs : List (Flight κ ν τ α δ)}
    {l : Nat} {f : Flight κ ν τ α δ} (hf : fs[l]? = some f) (hc : f.hasCalled = false)
    (hg : (g f).hasCalled = true) (hj : (g f).job = f.job) :
    (called (fs.modify l g)).Perm (called fs ++ [f.job]) := by
  induction fs generalizing l with
  | nil => simp at hf
  | cons x fs ih =>
    cases l with
    | zero =>
      obtain rfl : x = f := by simpa using hf
      simpa [called, hc, hg, hj] using (List.perm_append_singleton _ _).symm
    | succ l =>
      have htail := ih (l := l) (by simpa using hf)
      by_cases hx : x.hasCalled <;> simpa [called, hx] using htail

/-! ## Moves -/

section Moves

variable {s : Session σ κ ν τ α φ δ}

/-- Who joins a load leaves it where it is. -/
lemma called_join (l c : Nat) (phase : φ) : called (s.join l c phase).flights = called s.flights :=
  called_modify _ _ fun _ _ => ⟨rfl, rfl⟩

/-- A load that was just started has not had its first turn. -/
lemma called_startFlight (l : Nat) (job : δ) :
    called (s.startFlight l job).flights = called s.flights := by
  simp [called, startFlight, enqueue, Flight.hasCalled]

/-- An answer frees only loads that have had their first turn, and leaves them their jobs.

**Proof sketch.** A load that is freed was held before, and hence had had its first turn; it keeps
its job. -/
lemma called_free (a : Answer κ ν τ α) (t : Task) :
    called (free a s t).flights = called s.flights := by
  cases t with
  | caller c =>
    simp only [free]
    split <;> rfl
  | load l =>
    simp only [free]
    split
    · next hp =>
      obtain ⟨f, hf, hp⟩ := Option.map_eq_some_iff.1 hp
      refine called_modify _ _ fun g hg => ⟨?_, rfl⟩
      obtain rfl := Option.some.inj (hf.symm.trans hg)
      simp [Flight.hasCalled, hp]
    · rfl
  | deliver l c => rfl

/-- To release a gate does not count as a first turn of a load. -/
lemma called_release (gate : String) (a : Answer κ ν τ α) :
    called (s.release gate a).2.flights = called s.flights := by
  exact release_of_free (P := fun s' => called s'.flights = called s.flights) rfl (fun _ _ h => h)
    (fun _ t h => (called_free a t).trans h) gate

/-- To release a gate calls nobody. -/
lemma calls_release (gate : String) (a : Answer κ ν τ α) :
    (s.release gate a).2.calls = s.calls := by
  have hfree (s : Session σ κ ν τ α φ δ) (t : Task) : (free a s t).calls = s.calls := by
    cases t with
    | caller c | load l =>
      simp only [free]
      split <;> rfl
    | deliver l c => rfl
  exact release_of_free (P := fun s' => s'.calls = s.calls) rfl (fun _ _ h => h)
    (fun s' t h => (hfree s' t).trans h) gate

variable [Add τ] [LE τ] [DecidableLE τ] [DecidableEq κ] [Keylike κ]
variable {C : Client σ κ ν τ α φ δ}

/-- Calls are made in turns only.

**Proof sketch.** Apart from the turns of callers and loads no move calls, and none takes a load to
its first turn. -/
lemma calls_move {m : Move σ κ ν τ α φ} (hcaller : ∀ c, m ≠ .turn (.caller c))
    (hload : ∀ l, m ≠ .turn (.load l)) :
    (s.move C m).calls = s.calls ∧ called (s.move C m).flights = called s.flights := by
  cases m with
  | spawn _ | edit _ | elapse _ | stir _ | schedule _ => exact ⟨rfl, rfl⟩
  | cancel c =>
    rw [move, flights_cancel]
    refine ⟨?_, rfl⟩
    unfold cancel
    split <;> rfl
  | release gate a => exact ⟨calls_release gate a, called_release gate a⟩
  | turn t =>
    cases t with
    | caller c => exact absurd rfl (hcaller c)
    | load l => exact absurd rfl (hload l)
    | deliver l c =>
      rw [move, turn, flights_deliver]
      refine ⟨?_, rfl⟩
      unfold deliver
      split
      · split <;> rfl
      · rfl

/-- What a caller decided makes no load call.

**Proof sketch.** To join a load does not change it but for its waiters, and a load that was just
started has not had its first turn. -/
lemma called_follow (c : Nat) (next : Turn ν φ δ) :
    called (s.follow C c next).flights = called s.flights := by
  cases next with
  | done r => rfl
  | wait l job phase =>
    cases job with
    | none => exact called_join l c phase
    | some job => exact (called_join l c phase).trans (called_startFlight l job)
  | errand job phase =>
    rcases s.follow_errand (C := C) c job phase with ⟨_, _, h⟩ | ⟨_, _, h⟩ <;> rw [h]

/-- In the turn of a caller no load has its first turn. -/
lemma called_turnCaller (c : Nat) : called (s.turnCaller C c).flights = called s.flights := by
  unfold turnCaller
  split
  · exact called_follow (s := { s with stage := (C.start _ s.stage).2 }) c _
  · exact called_follow (s := { s with stage := (C.resume _ _ s.stage).2 }) c _
  · rfl
  · rfl
  · rfl

/-- Unless it does a job itself, a caller does not call. -/
lemma calls_follow (c : Nat) {next : Turn ν φ δ} (hn : ∀ job phase, next ≠ .errand job phase) :
    (s.follow C c next).calls = s.calls := by
  cases next with
  | done r => rfl
  | wait l job phase => cases job <;> rfl
  | errand job phase => exact absurd rfl (hn job phase)

/-- A caller that does a job itself calls for it at once. -/
lemma calls_follow_errand (c : Nat) (job : δ) (phase : φ) :
    (s.follow C c (.errand job phase)).calls = s.calls ++ [job] := by
  rcases s.follow_errand (C := C) c job phase with ⟨_, _, h⟩ | ⟨_, _, h⟩ <;> rw [h]

/-- A load calls in its first turn, and in no other one.

**Proof sketch.** The call is added in the turn in which the load ceases to be fresh. Whether the
answer comes at once or has to be waited for, the load has called from then on. -/
lemma calls_turnLoad (l : Nat) :
    (s.turnLoad C l).calls = s.calls ∧ called (s.turnLoad C l).flights = called s.flights ∨
      ∃ job, (s.turnLoad C l).calls = s.calls ++ [job] ∧
        (called (s.turnLoad C l).flights).Perm (called s.flights ++ [job]) := by
  have hturn := loadTurn (C := C) (s := s) l
  generalize s.turnLoad C l = s' at hturn ⊢
  cases hturn with
  | idle => exact Or.inl ⟨rfl, rfl⟩
  | @asked f gate hf hp ha =>
    have hc : f.hasCalled = false := by simp [Flight.hasCalled, hp]
    exact Or.inr ⟨f.job, rfl, called_modify_perm hf hc rfl rfl⟩
  | @answered f a hf hp ha =>
    have hc : f.hasCalled = false := by simp [Flight.hasCalled, hp]
    exact Or.inr ⟨f.job, rfl, called_modify_perm hf hc rfl rfl⟩
  | @freed f a hf hp =>
    refine Or.inl ⟨rfl, called_modify _ _ fun g hg => ⟨?_, rfl⟩⟩
    obtain rfl := Option.some.inj (hf.symm.trans hg)
    simp [Flight.hasCalled, hp]

end Moves

namespace Paid

variable {s : Session σ κ ν τ α φ δ}

/-- What leaves the calls and the flights alone. -/
lemma of_eq (H : Paid s) {s' : Session σ κ ν τ α φ δ} (hc : s'.calls = s.calls)
    (hf : called s'.flights = called s.flights) : Paid s' := by
  rw [Paid, hc, hf]
  exact H

variable [Add τ] [LE τ] [DecidableLE τ] [DecidableEq κ] [Keylike κ]
variable {C : Client σ κ ν τ α φ δ}

/-- The turn of a caller leaves the calls paid for, if no caller ever sees to a job of its own: then
it neither calls nor has a load called.

**Proof sketch.** The caller does not call, and no load has its first turn. -/
lemma turnCaller (H : Paid s) (c : Nat)
    (hstart : ∀ phase st job phase', (C.start phase st).1 ≠ .errand job phase')
    (hresume : ∀ phase r st job phase', (C.resume phase r st).1 ≠ .errand job phase') :
    Paid (s.turnCaller C c) := by
  refine H.of_eq ?_ (called_turnCaller c)
  unfold Session.turnCaller
  split
  · exact calls_follow (s := { s with stage := (C.start _ s.stage).2 }) c (hstart _ s.stage)
  · exact calls_follow (s := { s with stage := (C.resume _ _ s.stage).2 }) c (hresume _ _ s.stage)
  · rfl
  · rfl
  · rfl

/-- The turn of a load leaves the calls paid for: in its first turn it calls for its job, and in no
other. -/
lemma turnLoad (H : Paid s) (l : Nat) : Paid (s.turnLoad C l) := by
  rcases calls_turnLoad (C := C) (s := s) l with ⟨hcalls, hcalled⟩ | ⟨job, hcalls, hcalled⟩
  · exact H.of_eq hcalls hcalled
  · rw [Paid, hcalls]
    exact (H.append_right [job]).trans hcalled.symm

/-- **After every run** of a session whose callers leave it to the loads to call, each load has
called once if it has had its first turn, and nobody else has called.

**Proof sketch.** Induction on the run. The turns of callers and loads have their own lemmas, and
`calls_move` says that no other move calls. -/
theorem after (H : Paid s)
    (hstart : ∀ phase st job phase', (C.start phase st).1 ≠ .errand job phase')
    (hresume : ∀ phase r st job phase', (C.resume phase r st).1 ≠ .errand job phase')
    (ms : List (Move σ κ ν τ α φ)) : Paid (s.after C ms) := by
  induction ms generalizing s with
  | nil => exact H
  | cons m ms ih =>
    refine ih ?_
    by_cases hcaller : ∃ c, m = .turn (.caller c)
    · obtain ⟨c, rfl⟩ := hcaller
      exact H.turnCaller c hstart hresume
    · by_cases hload : ∃ l, m = .turn (.load l)
      · obtain ⟨l, rfl⟩ := hload
        exact H.turnLoad l
      · obtain ⟨hcalls, hcalled⟩ := calls_move (C := C) (s := s) (not_exists.1 hcaller)
          (not_exists.1 hload)
        exact H.of_eq hcalls hcalled

end Paid

end Session

end NodeKeeper
