import NodeKeeper.Proofs.Cache.Since
import NodeKeeper.Proofs.Session.Course
import NodeKeeper.Proofs.Session.Loads

/-!
# The loads of a session

The cache of a session knows the loads that have not landed, and a load is known by its place in the
list of flights. This holds after every run, also if the clock was turned back: whether an entry has
expired says nothing about loads.

## Main definitions

* `Session.Available` — a load that a caller may wait for.
* `Session.Shares` — callers wait for such loads alone.

## Main results

* `Session.drift_move`, `Session.drift_after` — whatever the clock says, every run is a drift of the
  cache, with the history of the run.
* `Session.valid_move`, `Session.valid_after` — every run keeps the ledger of a session valid.
* `Session.exists_shared`, `Session.nextLoad_eq` — where these loads stand.

## Implementation notes

The course of a session needs a clock that is not turned back only where time passes. The moves are
therefore gone through once more, with the clock left to go where it likes.
-/

namespace NodeKeeper.Session

open Cache (Account Drift Step)

variable {σ κ ν τ α φ δ : Type} [DecidableEq κ] [Keylike κ] [Add τ] [LE τ] [DecidableLE τ]

/-! ## Parts of moves -/

/-- An answer is played.

**Proof sketch.** The time that passes is a reset of the clock, and the edits are a course of the
cache. -/
lemma drift_play (a : Answer κ ν τ α) (st : Stage σ κ ν τ) (flights : List (Account κ)) :
    Drift (st.ledger flights) (answerHistory a st) ((play a st).ledger flights) := by
  have hedits (later : Stage σ κ ν τ) (hcache : later.cache = st.cache)
      (hplay : play a st = a.edits.foldl Stage.apply later) :
      Drift (st.ledger flights) (answerHistory a st) ((play a st).ledger flights) := by
    have hreset : Drift (st.ledger flights) [] (later.ledger flights) := by
      rw [Stage.ledger, Stage.ledger, hcache]
      exact Drift.refl.reset later.now
    rw [answerHistory, hplay, Stage.now_foldl_apply]
    simpa using hreset.trans (.of_course (later.course_foldl_apply a.edits flights))
  cases ht : a.took with
  | none => exact hedits st rfl (by simp [play, ht])
  | some d => exact hedits (st.advance d) rfl (by simp [play, ht])

/-- To play an answer keeps the ledger in order. -/
lemma valid_play (a : Answer κ ν τ α) {st : Stage σ κ ν τ} {flights : List (Account κ)}
    (H : (st.ledger flights).Valid) : ((play a st).ledger flights).Valid :=
  H.drift (drift_play a st flights)

variable {C : Client σ κ ν τ α φ δ} (K : Conduct C) (s : Session σ κ ν τ α φ δ)

variable {s} in
/-- A load that lands drifts along the history of its landing, even if the clock is set back. -/
lemma drift_land {l : Nat} {f : Flight κ ν τ α δ} (hf : s.flights[l]? = some f)
    (hp : f.progress.hasLanded = false) (a : Answer κ ν τ α) :
    Drift (s.ledger K.key) (landHistory K s l f.job a) ((s.land C l f a).ledger K.key) := by
  rw [ledger_land K hf a]
  refine (drift_play a s.stage _).step (Step.land ?_ _)
  simp [Stage.ledger, hf, Flight.account, hp]

/-- A caller that settles a job of its own drifts along the history of that. -/
lemma drift_settle (c : Nat) (job : δ) (phase : φ) (a : Answer κ ν τ α) :
    Drift (s.ledger K.key) (settleHistory K s job phase a)
      ((s.settle C c job phase a).ledger K.key) := by
  refine (drift_play a s.stage _).trans (.of_course ?_)
  rw [← K.conclude_ledger job a.outcome]
  exact K.settle_course _ _ _ _

/-- A caller that goes on drifts along what it does: the load that it starts, if any, is entered
beforehand.

**Proof sketch.** As in `course_follow`: to finish or to join does not show in the ledger, a load
that is started was entered beforehand, and a job of one's own is settled, or waited for. -/
lemma drift_follow (c : Nat) (next : Turn ν φ δ) :
    Drift (s.stage.ledger (s.flights.map (Flight.account K.key) ++ next.accounts K.key))
      (followHistory K s next) ((s.follow C c next).ledger K.key) := by
  cases next with
  | done r =>
    rw [Turn.accounts, List.append_nil]
    exact .refl
  | wait l job phase =>
    cases job with
    | none =>
      rw [Turn.accounts, List.append_nil, follow, ledger_join]
      exact .refl
    | some job =>
      rw [Turn.accounts, follow, ledger_join, ledger_startFlight]
      exact .refl
  | errand job phase =>
    have hask := ledger_ask K s job
    rw [Turn.accounts, List.append_nil]
    change Drift (s.ledger K.key) _ _
    simp only [follow, followHistory]
    rcases ha : s.ask C job with ⟨a | gate, s'⟩
    · rw [ha] at hask
      rw [← hask]
      exact drift_settle K s' c job phase a
    · rw [ha] at hask
      dsimp only
      rw [ledger_setCaller, ledger_await, hask]
      exact .refl

/-- The turn of a caller drifts along its history.

**Proof sketch.** As in `course_turnCaller`, with drifts for courses, so that nothing has to be
known of the clock. -/
lemma drift_turnCaller (c : Nat) :
    Drift (s.ledger K.key) (callerHistory K s c) ((s.turnCaller C c).ledger K.key) := by
  unfold turnCaller callerHistory
  cases s.callers[c]? with
  | none => exact .refl
  | some x =>
    cases x with
    | fresh phase =>
      exact Drift.trans (.of_course (K.start_course phase s.stage _))
        (drift_follow K { s with stage := (C.start phase s.stage).2 } c _)
    | answered r phase =>
      exact Drift.trans (.of_course (K.resume_course phase r s.stage _))
        (drift_follow K { s with stage := (C.resume phase r s.stage).2 } c _)
    | freed a job phase => exact drift_settle K s c job phase a
    | cancelled | waiting _ _ | held _ _ | finished _ => exact .refl

/-- The turn of a load drifts along its history.

**Proof sketch.** As in `course_turnLoad`: the load lands, or the turn does not show in the
ledger. -/
lemma drift_turnLoad (l : Nat) :
    Drift (s.ledger K.key) (loadHistory K s l) ((s.turnLoad C l).ledger K.key) := by
  unfold turnLoad loadHistory
  cases hf : s.flights[l]? with
  | none => exact .refl
  | some f =>
    have hask := ledger_ask K s f.job
    cases hp : f.progress with
    | fresh =>
      simp only [hp]
      rcases ha : s.ask C f.job with ⟨a | gate, s'⟩
      all_goals
        obtain rfl : (s.ask C f.job).2 = s' := by rw [ha]
        have hf' : (s.ask C f.job).2.flights[l]? = some f := hf
        rw [← hask]
      · exact drift_land K hf' (by rw [hp]; rfl) a
      · dsimp only
        rw [ledger_setProgress K.key (by exact hf') _ (by rw [hp]; rfl), ledger_await]
        exact .refl
    | freed a =>
      simp only [hp]
      exact drift_land K hf (by rw [hp]; rfl) a
    | held | landed _ =>
      simp only [hp]
      exact .refl

/-! ## Runs -/

/-- **Every move** is a drift of the cache.

**Proof sketch.** As in `course_move`, but the clock may be set to any time, which is what a drift
allows and a course does not. -/
theorem drift_move (m : Move σ κ ν τ α φ) :
    Drift (s.ledger K.key) (events K s m) ((s.move C m).ledger K.key) := by
  cases m with
  | spawn phase => exact .refl
  | cancel c =>
    rw [move, ledger_cancel]
    exact .refl
  | release gate a =>
    rw [move, ledger_release]
    exact .refl
  | edit e => exact .of_course (s.stage.course_apply e _)
  | elapse later => exact Drift.refl.reset later
  | stir f => exact .refl
  | schedule queue => exact .refl
  | turn t =>
    cases t with
    | caller c => exact drift_turnCaller K s c
    | load l => exact drift_turnLoad K s l
    | deliver l c =>
      rw [move, turn, ledger_deliver]
      exact .refl

/-- **Every run** is a drift of the cache, wherever the clock goes. -/
theorem drift_after (ms : List (Move σ κ ν τ α φ)) :
    Drift (s.ledger K.key) (history K s ms) ((s.after C ms).ledger K.key) := by
  induction ms generalizing s with
  | nil => exact .refl
  | cons m ms ih => exact (drift_move K s m).trans (ih (s.move C m))

variable {s}

/-- **Every move** keeps the ledger of a session valid. -/
theorem valid_move (H : (s.ledger K.key).Valid) (m : Move σ κ ν τ α φ) :
    ((s.move C m).ledger K.key).Valid :=
  H.drift (drift_move K s m)

/-- **Every run** keeps the ledger of a session valid. -/
theorem valid_after (H : (s.ledger K.key).Valid) (ms : List (Move σ κ ν τ α φ)) :
    ((s.after C ms).ledger K.key).Valid :=
  H.drift (drift_after K s ms)

/-- However a session goes along, its ledger stays in order. -/
lemma valid_along (H : (s.ledger K.key).Valid) (ws : List (Leg σ κ ν τ α φ)) :
    ((s.along C ws).ledger K.key).Valid := by
  obtain ⟨ms, hms⟩ := exists_along_eq_after C s ws
  rw [hms]
  exact valid_after K H ms

/-! ## Where loads stand -/

/-- A load that a caller may wait for: one that the cache shares or, if the caller starts it, the
next one. -/
def Available (c : Cache κ ν τ) (l : Nat) : Option δ → Prop
  | none => ∃ k, (k, l) ∈ c.inFlight
  | some _ => l = c.nextLoad

/-- Callers wait for loads that the cache shares, or for those that they start. -/
structure Shares (C : Client σ κ ν τ α φ δ) : Prop where
  start : ∀ phase st l job phase', (C.start phase st).1 = .wait l job phase' →
    Available st.cache l job
  resume : ∀ phase r st l job phase', (C.resume phase r st).1 = .wait l job phase' →
    Available st.cache l job

omit [DecidableEq κ] [Keylike κ] [Add τ] [LE τ] [DecidableLE τ] in
/-- A load that the cache shares is a load of its key, and has not landed. -/
lemma exists_shared {key : δ → κ} (H : (s.ledger key).Valid) {k : κ} {l : Nat}
    (hl : (k, l) ∈ s.stage.cache.inFlight) :
    ∃ f, s.flights[l]? = some f ∧ key f.job = k ∧ f.progress.hasLanded = false := by
  obtain ⟨load, hm, rfl, rfl, -⟩ := (H.coherent.flight_iff k l).1 hl
  have haccount := (H.mem_loads_iff load.id load.key).1 ⟨load, hm, rfl, rfl⟩
  rw [ledger, Stage.ledger, List.getElem?_map, Option.map_eq_some_iff] at haccount
  obtain ⟨f, hf, ha⟩ := haccount
  exact ⟨f, hf, congrArg Account.key ha, congrArg Account.landed ha⟩

omit [DecidableEq κ] [Keylike κ] [Add τ] [LE τ] [DecidableLE τ] in
/-- The next load has the next place. -/
lemma nextLoad_eq {key : δ → κ} (H : (s.ledger key).Valid) :
    s.stage.cache.nextLoad = s.flights.length := by
  have hlength := H.length_flights
  simpa [ledger, Stage.ledger] using hlength.symm

end NodeKeeper.Session
