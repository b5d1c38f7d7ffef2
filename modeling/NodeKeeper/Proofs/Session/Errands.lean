import NodeKeeper.Proofs.Session.Launching

/-!
# Jobs that callers see to themselves

A caller that sees to a job of its own calls for it in the turn in which it decides to, and settles
it once the answer is there. Whether a caller or a load calls, a job is given out by the turn of a
caller, so that what is true of the jobs that turns give out is true of all calls.

## Main definitions

* `Turn.job?` — the job that a turn gives out, to a load or to the caller itself.
* `Caller.seesTo` — a caller has called for a job of its own.
* `Session.CallsAre` — what is true of all calls, and of the jobs of all loads.

## Main results

* `Session.turnCaller_of_earns`, `Session.exists_callerHistory_of_earns` — what a caller that
  settles its own job does to the session, and to the history of the cache.
* `Session.CallsAre.after` — what is true of the jobs that turns give out is true of all calls.
-/

namespace NodeKeeper

/-- The job that a turn gives out, to a load or to the caller itself. -/
def Turn.job? {ν φ δ : Type} : Turn ν φ δ → Option δ
  | done _ => none
  | wait _ job _ => job
  | errand job _ => some job

/-- The caller has called for the job, and has not settled it. -/
def Caller.seesTo {κ ν τ α φ δ : Type} (job : δ) : Caller κ ν τ α φ δ → Prop
  | .held j _ | .freed _ j _ => j = job
  | .fresh _ | .waiting _ _ | .answered _ _ | .cancelled | .finished _ => False

namespace Session

variable {σ κ ν τ α φ δ : Type} [DecidableEq κ] [Keylike κ] [Add τ] [LE τ] [DecidableLE τ]
  {C : Client σ κ ν τ α φ δ} {s : Session σ κ ν τ α φ δ}

/-! ## Settling -/

section Settling

variable {c : Nat} {a : Answer κ ν τ α} {job : δ} {phase : φ} {st : Stage σ κ ν τ}

/-- A caller that has the answer to its own job settles it, and touches no load.

**Proof sketch.** The answer was waiting for the caller, or comes at once when it sets out to see to
the job. In each case it is settled in the same turn, and no load has a part in it. -/
lemma turnCaller_of_earns (h : Earns C s c a job phase st) :
    (s.turnCaller C c).flights = s.flights ∧ (s.turnCaller C c).stage =
      (C.settle phase (C.conclude job a.outcome (play a st)).1
        (C.conclude job a.outcome (play a st)).2).2 := by
  have hfollow {s : Session σ κ ν τ α φ δ} {st : Stage σ κ ν τ}
      (ha : C.call job s.stage = (.now a, st)) :
      (s.follow C c (.errand job phase)).flights = s.flights ∧
        (s.follow C c (.errand job phase)).stage =
          (C.settle phase (C.conclude job a.outcome (play a st)).1
            (C.conclude job a.outcome (play a st)).2).2 := by
    simp only [follow, ask, ha]
    exact ⟨rfl, rfl⟩
  cases h with
  | freed hc =>
    rw [turnCaller, hc]
    exact ⟨rfl, rfl⟩
  | first hc hn ha =>
    rw [turnCaller_of_fresh hc, hn]
    exact hfollow ha
  | later hc hn ha =>
    rw [turnCaller_of_answered hc, hn]
    exact hfollow ha

/-- What it makes of the answer is the last thing in the history of its turn.

**Proof sketch.** The cases are those of who settles a job. In each of them the events of settling
are the last ones. -/
lemma exists_callerHistory_of_earns (K : Conduct C) (h : Earns C s c a job phase st) :
    ∃ older, callerHistory K s c = K.settling phase (C.conclude job a.outcome (play a st)).1
      (C.conclude job a.outcome (play a st)).2 ++ older := by
  cases h with
  | freed hc =>
    refine ⟨answerHistory a s.stage, ?_⟩
    simp only [callerHistory, hc, settleHistory]
  | @first p st₁ st hc hn ha =>
    refine ⟨answerHistory a st ++ K.opening p s.stage, ?_⟩
    simp only [callerHistory, hc, hn, followHistory, ask, ha, settleHistory, List.append_assoc]
  | @later r p st₁ st hc hn ha =>
    refine ⟨answerHistory a st ++ K.resuming p r s.stage, ?_⟩
    simp only [callerHistory, hc, hn, followHistory, ask, ha, settleHistory, List.append_assoc]

end Settling

/-! ## All calls -/

/-- Something is true of all calls, and of the jobs of all loads. -/
structure CallsAre (J : δ → Prop) (s : Session σ κ ν τ α φ δ) : Prop where
  calls : ∀ job ∈ s.calls, J job
  flights : ∀ job ∈ s.flights.map Flight.job, J job

namespace CallsAre

variable {J : δ → Prop}

omit [DecidableEq κ] [Keylike κ] [Add τ] [LE τ] [DecidableLE τ] in
/-- What leaves the calls and the jobs alone. -/
lemma of_eq (H : CallsAre J s) {s' : Session σ κ ν τ α φ δ} (hc : s'.calls = s.calls)
    (hf : s'.flights.map Flight.job = s.flights.map Flight.job) : CallsAre J s' where
  calls := hc ▸ H.calls
  flights := hf ▸ H.flights

omit [DecidableEq κ] [Keylike κ] [Add τ] [LE τ] [DecidableLE τ] in
/-- A call is made. -/
lemma call (H : CallsAre J s) {s' : Session σ κ ν τ α φ δ} {job : δ} (hj : J job)
    (hc : s'.calls = s.calls ++ [job])
    (hf : s'.flights.map Flight.job = s.flights.map Flight.job) : CallsAre J s' where
  calls := by
    rw [hc]
    intro j hmem
    rcases List.mem_append.1 hmem with hold | hnew
    · exact H.calls j hold
    · exact List.mem_singleton.1 hnew ▸ hj
  flights := hf ▸ H.flights

/-- What a caller decided takes place.

**Proof sketch.** A load that is started is for the job that the caller decided on; a job of its own
is called for at once. To join a load does not change the jobs of loads. -/
lemma follow (H : CallsAre J s) (c : Nat) {next : Turn ν φ δ}
    (hn : ∀ job, next.job? = some job → J job) : CallsAre J (s.follow C c next) := by
  have hjoin (l : Nat) (fs : List (Flight κ ν τ α δ)) :
      (fs.modify l fun f => { f with waiters := f.waiters ++ [c] }).map Flight.job =
        fs.map Flight.job :=
    map_modify_flights fs l fun _ _ => rfl
  cases next with
  | done r => exact H.of_eq rfl rfl
  | wait l job phase =>
    cases job with
    | none => exact H.of_eq rfl (hjoin l s.flights)
    | some job =>
      refine ⟨H.calls, fun j hmem => ?_⟩
      rw [Session.follow, join, hjoin, startFlight, enqueue, List.map_append] at hmem
      rcases List.mem_append.1 hmem with hold | hnew
      · exact H.flights j hold
      · exact List.mem_singleton.1 hnew ▸ hn job rfl
  | errand job phase =>
    refine H.call (hn job rfl) (calls_follow_errand c job phase) ?_
    rcases s.follow_errand (C := C) c job phase with ⟨_, _, h⟩ | ⟨_, _, h⟩ <;> rw [h]

/-- The turn of a load: it calls for the job that it was given.

**Proof sketch.** The cases are those of `loadTurn`. A load calls for its own job, and keeps it. -/
lemma turnLoad (H : CallsAre J s) (l : Nat) : CallsAre J (s.turnLoad C l) := by
  have hset (s : Session σ κ ν τ α φ δ) (p : Progress κ ν τ α) :
      (s.setProgress l p).flights.map Flight.job = s.flights.map Flight.job :=
    map_modify_flights s.flights l fun _ _ => rfl
  have hturn := loadTurn (C := C) (s := s) l
  generalize s.turnLoad C l = s' at hturn ⊢
  have hjob {f : Flight κ ν τ α δ} (hf : s.flights[l]? = some f) : J f.job :=
    H.flights f.job (List.mem_map_of_mem (List.mem_of_getElem? hf))
  cases hturn with
  | idle => exact H
  | asked hf hp ha => exact H.call (hjob hf) rfl (hset _ _)
  | answered hf hp ha => exact H.call (hjob hf) rfl (hset _ _)
  | freed hf hp => exact H.of_eq rfl (hset _ _)

variable (hstart : ∀ phase st job, (C.start phase st).1.job? = some job → J job)
  (hresume : ∀ phase r st job, (C.resume phase r st).1.job? = some job → J job)

include hstart hresume

/-- The turn of a caller gives out jobs of this kind. -/
lemma turnCaller (H : CallsAre J s) (c : Nat) : CallsAre J (s.turnCaller C c) := by
  have hstage (stage : Stage σ κ ν τ) : CallsAre J { s with stage } := ⟨H.calls, H.flights⟩
  unfold Session.turnCaller
  split
  · exact (hstage _).follow c (hstart _ s.stage)
  · exact (hstage _).follow c (hresume _ _ s.stage)
  · exact H.of_eq rfl rfl
  · exact H.of_eq rfl rfl
  · exact H

/-- **One move** makes no other calls.

**Proof sketch.** Only the turns of callers and loads call, or start loads, and they have their own
lemmas. All other moves leave the calls alone, and the loads at their jobs. -/
lemma move (H : CallsAre J s) (m : Move σ κ ν τ α φ) : CallsAre J (s.move C m) := by
  cases m with
  | spawn _ | edit _ | elapse _ | stir _ | schedule _ => exact H.of_eq rfl rfl
  | cancel c => exact H.of_eq (calls_move (by simp) (by simp)).1 (congrArg _ (flights_cancel c))
  | release gate a =>
    refine H.of_eq (calls_release gate a) (List.ext_getElem? fun l => ?_)
    rw [List.getElem?_map, List.getElem?_map]
    rcases flights_release (s := s) gate a l with hsame | ⟨f, hf, -, hfreed⟩
    · exact congrArg _ hsame
    · rw [hf, Session.move, hfreed]
      rfl
  | turn t =>
    cases t with
    | caller c => exact H.turnCaller hstart hresume c
    | load l => exact H.turnLoad l
    | deliver l c =>
      exact H.of_eq (calls_move (by simp) (by simp)).1 (congrArg _ (flights_deliver l c))

/-- **After every run**, what is true of the jobs that turns give out is true of all calls. -/
theorem after (H : CallsAre J s) (ms : List (Move σ κ ν τ α φ)) : CallsAre J (s.after C ms) := by
  induction ms generalizing s with
  | nil => exact H
  | cons m ms ih => exact ih (H.move hstart hresume m)

end CallsAre

end Session

end NodeKeeper
