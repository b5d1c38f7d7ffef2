import NodeKeeper.Proofs.Session.Calls
import NodeKeeper.Proofs.Session.Joining

/-!
# Counting along a run

What the moves of a run yield is gathered one move after the other. Loads are counted as they are
started and as they fail; nobody but a caller in its own turn starts one.

## Main definitions

* `Session.gather` — what the moves of a run yield.
* `Session.startedBy` — how many loads a caller starts in a run.
* `Session.failures` — how many loads have failed.

## Main results

* `Session.length_flights_turnCaller`, `Session.length_flights_turnLoad` — who starts loads.
* `Session.length_calls_le` — if callers leave it to the loads to call, there is a load for every
  call.
-/

namespace NodeKeeper

/-- The load has failed. -/
def Flight.hasFailed {κ ν τ α δ : Type} (f : Flight κ ν τ α δ) : Bool :=
  match f.progress with
  | .landed (.error _) => true
  | .fresh | .held | .freed _ | .landed (.ok _) => false

/-- A load that has not landed has not failed. -/
lemma Flight.hasFailed_eq_false {κ ν τ α δ : Type} {f : Flight κ ν τ α δ}
    (h : f.progress.hasLanded = false) : f.hasFailed = false := by
  unfold hasFailed
  split
  · next e hp => exact absurd h (by simp [hp, Progress.hasLanded])
  · rfl
  · rfl
  · rfl
  · rfl

/-- The number of loads that are started at the end of a turn. -/
def Turn.starts {ν φ δ : Type} : Turn ν φ δ → Nat
  | .wait _ (some _) _ => 1
  | .wait _ none _ | .done _ | .errand _ _ => 0

/-- A caller starts at most one load in a turn. -/
lemma Turn.starts_le_one {ν φ δ : Type} (next : Turn ν φ δ) : next.starts ≤ 1 := by
  unfold starts
  split <;> omega

namespace Session

variable {σ κ ν τ α φ δ β : Type}

/-- The number of loads that have failed. -/
def failures (s : Session σ κ ν τ α φ δ) : Nat := s.flights.countP Flight.hasFailed

variable [DecidableEq κ] [Keylike κ] [Add τ] [LE τ] [DecidableLE τ]

/-! ## Gathering -/

section Gather

variable (C : Client σ κ ν τ α φ δ)

/-- What the moves of a run yield, one after the other. -/
def gather (f : Session σ κ ν τ α φ δ → Move σ κ ν τ α φ → List β) (s : Session σ κ ν τ α φ δ) :
    List (Move σ κ ν τ α φ) → List β
  | [] => []
  | m :: ms => f s m ++ gather f (s.move C m) ms

/-- The number of loads that a caller starts in a run. -/
def startedBy (c : Nat) (s : Session σ κ ν τ α φ δ) : List (Move σ κ ν τ α φ) → Nat
  | [] => 0
  | .turn (.caller d) :: ms =>
    (if d = c then (s.turnCaller C d).flights.length - s.flights.length else 0) +
      startedBy c (s.turnCaller C d) ms
  | m :: ms => startedBy c (s.move C m) ms

end Gather

/-! ## Loads that are started -/

section Starts

variable {C : Client σ κ ν τ α φ δ} {s : Session σ κ ν τ α φ δ}

/-- There are as many more loads after a caller has gone on as it has started.

**Proof sketch.** The cases are those of what was decided: only one of them starts a load. -/
lemma length_flights_follow (c : Nat) (next : Turn ν φ δ) :
    (s.follow C c next).flights.length = s.flights.length + next.starts := by
  cases next with
  | done r => rfl
  | wait l job phase =>
    cases job with
    | none => simp [follow, join, Turn.starts]
    | some job => simp [follow, join, startFlight, enqueue, Turn.starts]
  | errand job phase =>
    rcases s.follow_errand (C := C) c job phase with ⟨_, _, h⟩ | ⟨_, _, h⟩ <;> rw [h]
    · rfl
    · rfl

/-- In its first turn a caller adds as many loads as the start of its request says. -/
lemma length_flights_turnCaller_of_fresh {c : Nat} {phase : φ}
    (hc : s.callers[c]? = some (.fresh phase)) :
    (s.turnCaller C c).flights.length = s.flights.length + (C.start phase s.stage).1.starts := by
  rw [turnCaller_of_fresh hc, length_flights_follow]

/-- In a turn in which it resumes a request a caller adds as many loads as that says. -/
lemma length_flights_turnCaller_of_answered {c : Nat} {r : Outcome ν} {phase : φ}
    (hc : s.callers[c]? = some (.answered r phase)) :
    (s.turnCaller C c).flights.length =
      s.flights.length + (C.resume phase r s.stage).1.starts := by
  rw [turnCaller_of_answered hc, length_flights_follow]

/-- Who neither begins nor goes on starts no load. -/
lemma flights_turnCaller {c : Nat} (hf : ∀ phase, s.callers[c]? ≠ some (.fresh phase))
    (ha : ∀ r phase, s.callers[c]? ≠ some (.answered r phase)) :
    (s.turnCaller C c).flights = s.flights := by
  unfold turnCaller
  split
  · next phase hc => exact absurd hc (hf phase)
  · next r phase hc => exact absurd hc (ha r phase)
  · rfl
  · rfl
  · rfl

omit [DecidableEq κ] [Keylike κ] [Add τ] [LE τ] [DecidableLE τ] in
/-- To release a gate starts no load.

**Proof sketch.** To free somebody changes the progress of one load at most, and `release_of_free`
extends this to all who wait at the gate. -/
lemma length_flights_release (gate : String) (a : Answer κ ν τ α) :
    (s.release gate a).2.flights.length = s.flights.length := by
  have hfree (s : Session σ κ ν τ α φ δ) (t : Task) :
      (free a s t).flights.length = s.flights.length := by
    cases t with
    | caller c =>
      simp only [free]
      split <;> rfl
    | load l =>
      simp only [free]
      split <;> simp [setProgress, enqueue]
    | deliver l c => rfl
  exact release_of_free (P := fun s' => s'.flights.length = s.flights.length) rfl
    (fun _ _ h => h) (fun s' t h => (hfree s' t).trans h) gate

/-- A load starts no load. -/
lemma length_flights_turnLoad (l : Nat) :
    (s.turnLoad C l).flights.length = s.flights.length := by
  have hturn := loadTurn (C := C) (s := s) l
  generalize s.turnLoad C l = s' at hturn ⊢
  cases hturn with
  | idle => rfl
  | asked | answered | freed => simp [land, setProgress, enqueueAll, await, ask]

omit [DecidableEq κ] [Keylike κ] [Add τ] [LE τ] [DecidableLE τ] in
/-- There is a load for every call. -/
lemma length_calls_le (H : Paid s) : s.calls.length ≤ s.flights.length := by
  rw [H.length_eq, called, List.length_map]
  exact List.length_filter_le _ _

end Starts

/-! ## Loads that fail -/

section Failures

variable {C : Client σ κ ν τ α φ δ} {s s' : Session σ κ ν τ α φ δ}

omit [DecidableEq κ] [Keylike κ] [Add τ] [LE τ] [DecidableLE τ]

/-- The number of failures depends only on which loads have failed. -/
lemma failures_of_map (h : s'.flights.map Flight.hasFailed = s.flights.map Flight.hasFailed) :
    failures s' = failures s := by
  have hcount (fs : List (Flight κ ν τ α δ)) :
      fs.countP Flight.hasFailed = (fs.map Flight.hasFailed).countP id := by
    rw [List.countP_map]
    rfl
  rw [failures, failures, hcount, hcount, h]

/-- A load gets somewhere without failing. -/
lemma failures_setProgress {l : Nat} {p : Progress κ ν τ α}
    (h : ∀ f, s.flights[l]? = some f → (Flight.mk f.job p f.waiters).hasFailed = f.hasFailed) :
    failures (s.setProgress l p) = failures s :=
  failures_of_map (map_modify_flights s.flights l h)

/-- To join a load makes none fail. -/
lemma failures_join (l c : Nat) (phase : φ) : failures (s.join l c phase) = failures s :=
  failures_of_map (map_modify_flights s.flights l fun _ _ => rfl)

/-- A load that was just started has not failed. -/
lemma failures_startFlight (l : Nat) (job : δ) :
    failures (s.startFlight l job) = failures s := by
  simp [failures, startFlight, enqueue, Flight.hasFailed]

/-- A load fails.

**Proof sketch.** Induction on the place of the load. The one that is set did not count before, and
counts now; the others are as they were. -/
lemma failures_setFailed {l : Nat} {f : Flight κ ν τ α δ} (hf : s.flights[l]? = some f)
    (hn : f.hasFailed = false) (e : Fault) :
    failures (s.setProgress l (.landed (.error e))) = failures s + 1 := by
  have hmodify (fs : List (Flight κ ν τ α δ)) (l : Nat) (hf : fs[l]? = some f) :
      (fs.modify l fun f => { f with progress := .landed (.error e) }).countP Flight.hasFailed =
        fs.countP Flight.hasFailed + 1 := by
    induction fs generalizing l with
    | nil => exact absurd hf (by simp)
    | cons x fs ih =>
      cases l with
      | zero =>
        obtain rfl : x = f := by simpa using hf
        rw [List.modify_zero_cons, List.countP_cons_of_pos rfl,
          List.countP_cons_of_neg (by simp [hn])]
      | succ l =>
        rw [List.modify_succ_cons, List.countP_cons, List.countP_cons, ih l (by simpa using hf)]
        omega
  exact hmodify s.flights l hf

/-- To release a gate makes no load fail: an answer counts only when it is received. -/
lemma failures_release (gate : String) (a : Answer κ ν τ α) :
    failures (s.release gate a).2 = failures s := by
  refine failures_of_map (List.ext_getElem? fun l => ?_)
  rw [List.getElem?_map, List.getElem?_map]
  rcases flights_release (s := s) gate a l with hsame | ⟨f, hf, hheld, hfreed⟩
  · rw [hsame]
  · rw [hf, hfreed]
    simp [Flight.hasFailed, hheld]

end Failures

/-- A caller that goes on makes no load fail.

**Proof sketch.** To join or to start a load makes none fail, and to see to a job of one's own does
not touch loads. -/
lemma failures_follow {C : Client σ κ ν τ α φ δ} {s : Session σ κ ν τ α φ δ} (c : Nat)
    (next : Turn ν φ δ) : failures (s.follow C c next) = failures s := by
  cases next with
  | done r => rfl
  | wait l job phase =>
    cases job with
    | none => exact failures_join l c phase
    | some job => rw [follow, failures_join, failures_startFlight]
  | errand job phase =>
    rcases s.follow_errand (C := C) c job phase with ⟨_, _, h⟩ | ⟨_, _, h⟩ <;> rw [h]
    · rfl
    · rfl

/-- No load fails while a caller takes its turn. -/
lemma failures_turnCaller {C : Client σ κ ν τ α φ δ} {s : Session σ κ ν τ α φ δ} (c : Nat) :
    failures (s.turnCaller C c) = failures s := by
  unfold turnCaller
  split
  · exact failures_follow c _
  · exact failures_follow c _
  · rfl
  · rfl
  · rfl

end Session

end NodeKeeper
