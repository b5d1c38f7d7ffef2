import NodeKeeper.Proofs.Session.Run

/-!
# What becomes of a caller in one move

A caller moves in few ways only: it comes in, is cancelled, gets an answer, or takes a turn. All
that is known of callers after a run is derived from these.

## Main definitions

* `Turn.LeadsTo` — where a caller is at the end of its turn.
* `Session.CallerStep` — what can become of a caller in one move.
* `Session.Unladen` — no caller sees to a job of its own.
* `Session.HasBegun` — a caller has had its first turn.

## Main results

* `Session.callerStep_move` — nothing else can.
* `Session.exists_beginning`, `Session.exists_finishing` — the turns in which a caller began, and
  in which it finished.
-/

namespace NodeKeeper

/-- The caller sees to a job of its own. -/
def Caller.isLaden {κ ν τ α φ δ : Type} : Caller κ ν τ α φ δ → Bool
  | .held _ _ | .freed _ _ _ => true
  | .fresh _ | .waiting _ _ | .answered _ _ | .cancelled | .finished _ => false

/-- The caller has had its first turn, and has neither been cancelled nor failed since. -/
def Caller.hasBegun {κ ν τ α φ δ : Type} : Caller κ ν τ α φ δ → Bool
  | .waiting _ _ | .answered _ _ | .held _ _ | .freed _ _ _ | .finished (.ok _) => true
  | .fresh _ | .cancelled | .finished (.error _) => false

/-- Where a caller is once what it decided at the end of its turn has taken place. -/
def Turn.LeadsTo {κ ν τ α φ δ : Type} (next : Turn ν φ δ) (x : Caller κ ν τ α φ δ) : Prop :=
  match next with
  | .done r => x = .finished r
  | .wait l _ phase => x = .waiting l phase
  | .errand job phase => x = .held job phase ∨ ∃ r, x = .finished r

namespace Turn.LeadsTo

variable {κ ν τ α φ δ : Type} {next : Turn ν φ δ}

/-- Only who decides to wait comes to wait. -/
lemma eq_wait {l : Nat} {phase : φ} (h : next.LeadsTo (.waiting l phase : Caller κ ν τ α φ δ)) :
    ∃ job, next = .wait l job phase := by
  cases next with
  | done r => exact absurd h (by simp [LeadsTo])
  | wait m job phase' =>
    obtain ⟨rfl, rfl⟩ := Caller.waiting.inj h
    exact ⟨job, rfl⟩
  | errand job phase' => exact absurd h (by simp [LeadsTo])

/-- Only who decides to finish finishes. -/
lemma eq_done {r : Outcome ν} (h : next.LeadsTo (.finished r : Caller κ ν τ α φ δ))
    (hn : ∀ job phase, next ≠ .errand job phase) : next = .done r := by
  cases next with
  | done r' => rw [Caller.finished.inj h]
  | wait m job phase' => exact absurd h (by simp [LeadsTo])
  | errand job phase' => exact absurd rfl (hn job phase')

/-- No turn ends with an answer that is still to be looked at. -/
lemma ne_answered {r : Outcome ν} {phase : φ} :
    ¬ next.LeadsTo (.answered r phase : Caller κ ν τ α φ δ) := by
  cases next <;> simp [LeadsTo]

/-- No turn ends at a gate that has opened. -/
lemma ne_freed {a : Answer κ ν τ α} {job : δ} {phase : φ} :
    ¬ next.LeadsTo (.freed a job phase : Caller κ ν τ α φ δ) := by
  cases next <;> simp [LeadsTo]

/-- Who decides not to see to a job of its own does not. -/
lemma isLaden_eq_false {x : Caller κ ν τ α φ δ} (h : next.LeadsTo x)
    (hn : ∀ job phase, next ≠ .errand job phase) : x.isLaden = false := by
  cases next with
  | done r =>
    rw [show x = .finished r from h]
    rfl
  | wait l job phase =>
    rw [show x = .waiting l phase from h]
    rfl
  | errand job phase => exact absurd rfl (hn job phase)

end Turn.LeadsTo

namespace Session

variable {σ κ ν τ α φ δ : Type} [DecidableEq κ] [Keylike κ] [Add τ] [LE τ] [DecidableLE τ]

/-- What can become of a caller in one move. -/
inductive CallerStep (C : Client σ κ ν τ α φ δ) (s : Session σ κ ν τ α φ δ) (c : Nat) :
    Move σ κ ν τ α φ → Option (Caller κ ν τ α φ δ) → Option (Caller κ ν τ α φ δ) → Prop
  /-- It is where it was. -/
  | same (m : Move σ κ ν τ α φ) (x : Option (Caller κ ν τ α φ δ)) : CallerStep C s c m x x
  /-- It comes in. -/
  | spawned (phase : φ) : CallerStep C s c (.spawn phase) none (some (.fresh phase))
  /-- It is cancelled before it has finished. -/
  | cancelled {x : Caller κ ν τ α φ δ} (hx : ∀ r, x ≠ .finished r) :
      CallerStep C s c (.cancel c) (some x) (some .cancelled)
  /-- The gate that it waits at has opened. -/
  | freed (gate : String) (a : Answer κ ν τ α) (job : δ) (phase : φ) :
      CallerStep C s c (.release gate a) (some (.held job phase)) (some (.freed a job phase))
  /-- The load that it waits for hands over its outcome. -/
  | delivered {l : Nat} {o : Outcome ν} (phase : φ)
      (h : (s.flights[l]?).map Flight.progress = some (.landed o)) :
      CallerStep C s c (.turn (.deliver l c)) (some (.waiting l phase))
        (some (.answered (forWaiter o) phase))
  /-- It takes its first turn. -/
  | began (phase : φ) {y : Caller κ ν τ α φ δ} (h : (C.start phase s.stage).1.LeadsTo y) :
      CallerStep C s c (.turn (.caller c)) (some (.fresh phase)) (some y)
  /-- It goes on after a load has ended. -/
  | resumed (r : Outcome ν) (phase : φ) {y : Caller κ ν τ α φ δ}
      (h : (C.resume phase r s.stage).1.LeadsTo y) :
      CallerStep C s c (.turn (.caller c)) (some (.answered r phase)) (some y)
  /-- It finishes its own job. -/
  | settled (a : Answer κ ν τ α) (job : δ) (phase : φ) (r : Outcome ν) :
      CallerStep C s c (.turn (.caller c)) (some (.freed a job phase)) (some (.finished r))
  /-- It finishes because it was cancelled. -/
  | gaveUp : CallerStep C s c (.turn (.caller c)) (some .cancelled)
      (some (.finished (.error .cancellation)))

variable {C : Client σ κ ν τ α φ δ} {s : Session σ κ ν τ α φ δ}

/-! ## Parts of moves -/

section Parts

omit [DecidableEq κ] [Keylike κ] [Add τ] [LE τ] [DecidableLE τ]

/-- The other callers stay where they are. -/
lemma callers_setCaller_ne {c d : Nat} (hd : d ≠ c) (x : Caller κ ν τ α φ δ) :
    (s.setCaller d x).callers[c]? = s.callers[c]? :=
  List.getElem?_set_ne hd

/-- A caller that was there is found as it was set. -/
lemma callers_setCaller_self {c : Nat} {x : Caller κ ν τ α φ δ} (hc : s.callers[c]? = some x)
    (y : Caller κ ν τ α φ δ) : (s.setCaller c y).callers[c]? = some y :=
  List.getElem?_set_self (List.getElem?_eq_some_iff.1 hc).1

/-- A gate that opens frees one of those who waited there.

**Proof sketch.** Only the caller to whom the task belongs is touched, and only if it is held; it is
freed then. -/
lemma callers_free (a : Answer κ ν τ α) (t : Task) (c : Nat) :
    (free a s t).callers[c]? = s.callers[c]? ∨ ∃ job phase,
      s.callers[c]? = some (.held job phase) ∧
        (free a s t).callers[c]? = some (.freed a job phase) := by
  cases t with
  | caller d =>
    simp only [free]
    split
    · next job phase hd =>
      by_cases hdc : d = c
      · subst hdc
        exact Or.inr ⟨job, phase, hd, callers_setCaller_self hd _⟩
      · exact Or.inl (callers_setCaller_ne hdc _)
    · exact Or.inl rfl
  | load l =>
    simp only [free]
    split <;> exact Or.inl rfl
  | deliver l d => exact Or.inl rfl

/-- An answer leaves a caller as it was, or frees it from waiting for this answer.

**Proof sketch.** By `release_of_free` it suffices to free one task after the other. To free one
changes at most its own caller, and a caller that was freed is not held any more. -/
lemma callers_release (gate : String) (a : Answer κ ν τ α) (c : Nat) :
    (s.release gate a).2.callers[c]? = s.callers[c]? ∨ ∃ job phase,
      s.callers[c]? = some (.held job phase) ∧
        (s.release gate a).2.callers[c]? = some (.freed a job phase) := by
  refine release_of_free (P := fun s' => s'.callers[c]? = s.callers[c]? ∨ ∃ job phase,
    s.callers[c]? = some (.held job phase) ∧ s'.callers[c]? = some (.freed a job phase))
    (Or.inl rfl) (fun _ _ h => h) (fun s' t h => ?_) gate
  rcases h with hsame | ⟨job, phase, hheld, hfreed⟩
  · rw [← hsame]
    exact callers_free a t c
  · rcases callers_free (s := s') a t c with hsame | ⟨job', phase', hheld', -⟩
    · exact Or.inr ⟨job, phase, hheld, hsame.trans hfreed⟩
    · -- who has been freed is not held any more
      exact absurd (hheld'.symm.trans hfreed) (by simp)

/-- To cancel one caller is a step of each: that one is cancelled unless it was done, and the others
stay as they are.

**Proof sketch.** Who has finished, or was cancelled before, stays so. Anybody else who is cancelled
is marked as cancelled, and takes a last turn. -/
lemma callerStep_cancel (c d : Nat) :
    CallerStep C s c (.cancel d) s.callers[c]? (s.cancel d).2.callers[c]? := by
  by_cases hd : d = c
  · subst hd
    unfold cancel
    cases hc : s.callers[d]? with
    | none =>
      dsimp only
      rw [hc]
      exact .same _ _
    | some x =>
      cases x with
      | cancelled | finished _ =>
        dsimp only
        rw [hc]
        exact .same _ _
      | fresh _ | waiting _ _ | answered _ _ | held _ _ | freed _ _ _ =>
        have hset := callers_setCaller_self hc .cancelled
        dsimp only [enqueue]
        rw [hset]
        exact .cancelled (by simp)
  · have hsame : (s.cancel d).2.callers[c]? = s.callers[c]? := by
      unfold cancel
      split <;> first | rfl | exact callers_setCaller_ne hd _
    rw [hsame]
    exact .same _ _

/-- A new caller is a step of each: it appears at a place where there was nobody.

**Proof sketch.** The place of a caller is before the new one, is that of the new one, or is behind
it. -/
lemma callerStep_spawn (c : Nat) (phase : φ) :
    CallerStep C s c (.spawn phase) s.callers[c]? (s.spawn phase).2.callers[c]? := by
  have hcallers : (s.spawn phase).2.callers = s.callers ++ [.fresh phase] := rfl
  rw [hcallers]
  rcases Nat.lt_trichotomy c s.callers.length with hlt | rfl | hgt
  · rw [List.getElem?_append_left hlt]
    exact .same _ _
  · rw [List.getElem?_concat_length, List.getElem?_eq_none (Nat.le_refl _)]
    exact .spawned phase
  · have hout : (s.callers ++ [Caller.fresh phase]).length ≤ c := by
      rw [List.length_append, List.length_singleton]
      exact hgt
    rw [List.getElem?_eq_none (Nat.le_of_lt hgt), List.getElem?_eq_none hout]
    exact .same _ _

/-- A delivery is a step of each caller: the one that waits for this load is answered, and the
others stay as they are.

**Proof sketch.** The delivery is made only if the load has landed and the caller waits for this
load; then it is answered with the outcome for waiters. In all other cases nothing happens. -/
lemma callerStep_deliver (c l d : Nat) :
    CallerStep C s c (.turn (.deliver l d)) s.callers[c]? (s.deliver l d).callers[c]? := by
  unfold deliver
  split
  · next r m phase hl hd =>
    split
    · next hm =>
      subst hm
      by_cases hdc : d = c
      · subst hdc
        have hset := callers_setCaller_self hd (.answered (forWaiter r) phase)
        dsimp only [enqueue]
        rw [hset, hd]
        exact .delivered phase hl
      · have hset := callers_setCaller_ne (s := s) hdc (.answered (forWaiter r) phase)
        dsimp only [enqueue]
        rw [hset]
        exact .same _ _
    · exact .same _ _
  · exact .same _ _

end Parts

/-- Who has no job to see to leaves the stage alone at the end of its turn. -/
lemma stage_follow (c : Nat) {next : Turn ν φ δ} (hn : ∀ job phase, next ≠ .errand job phase) :
    (s.follow C c next).stage = s.stage := by
  cases next with
  | done r => rfl
  | wait l job phase => cases job <;> rfl
  | errand job phase => exact absurd rfl (hn job phase)

/-- What a caller decided moves no other caller.

**Proof sketch.** To finish, to join and to hold sets the one caller alone; to start a load, and to
call for a job, touches no caller. -/
lemma callers_follow_ne {c d : Nat} (hd : d ≠ c) (next : Turn ν φ δ) :
    (s.follow C d next).callers[c]? = s.callers[c]? := by
  cases next with
  | done r => exact callers_setCaller_ne hd _
  | wait l job phase =>
    cases job with
    | none => exact List.getElem?_set_ne hd
    | some job => exact List.getElem?_set_ne hd
  | errand job phase =>
    rcases s.follow_errand (C := C) d job phase with ⟨_, _, h⟩ | ⟨_, _, h⟩ <;> rw [h]
    · exact List.getElem?_set_ne hd
    · exact List.getElem?_set_ne hd

/-- What a caller decided takes it where that leads.

**Proof sketch.** The caller finishes, waits for the load, is held until its answer comes, or has
finished with an answer that came at once. -/
lemma callers_follow_self {c : Nat} {x : Caller κ ν τ α φ δ} (hc : s.callers[c]? = some x)
    (next : Turn ν φ δ) :
    ∃ y, (s.follow C c next).callers[c]? = some y ∧ next.LeadsTo y := by
  cases next with
  | done r => exact ⟨_, callers_setCaller_self hc _, rfl⟩
  | wait l job phase =>
    cases job with
    | none => exact ⟨_, callers_setCaller_self hc (.waiting l phase), rfl⟩
    | some job => exact ⟨_, callers_setCaller_self hc (.waiting l phase), rfl⟩
  | errand job phase =>
    rcases s.follow_errand (C := C) c job phase with ⟨r, _, h⟩ | ⟨_, _, h⟩ <;> rw [h]
    · exact ⟨_, callers_setCaller_self hc (.finished r), Or.inr ⟨r, rfl⟩⟩
    · exact ⟨_, callers_setCaller_self hc (.held job phase), Or.inl rfl⟩

/-- The turn of one caller does not touch another one. -/
lemma callers_turnCaller_ne {c d : Nat} (hd : d ≠ c) :
    (s.turnCaller C d).callers[c]? = s.callers[c]? := by
  unfold turnCaller
  split
  · exact callers_follow_ne hd _
  · exact callers_follow_ne hd _
  · exact callers_setCaller_ne hd _
  · exact callers_setCaller_ne hd _
  · rfl

/-- Who settles its own job finishes. -/
lemma callers_settle_self {c : Nat} {x : Caller κ ν τ α φ δ} (hc : s.callers[c]? = some x)
    (job : δ) (phase : φ) (a : Answer κ ν τ α) :
    ∃ r, (s.settle C c job phase a).callers[c]? = some (.finished r) :=
  ⟨_, callers_setCaller_self hc _⟩

/-- The first turn of a caller is to start its request, and to follow what that says. -/
lemma turnCaller_of_fresh {c : Nat} {phase : φ} (hc : s.callers[c]? = some (.fresh phase)) :
    s.turnCaller C c =
      ({ s with stage := (C.start phase s.stage).2 } : Session _ _ _ _ _ _ _).follow C c
        (C.start phase s.stage).1 := by
  rw [turnCaller, hc]

/-- The turn of a caller that was answered is to resume its request with the answer, and to follow
what that says. -/
lemma turnCaller_of_answered {c : Nat} {r : Outcome ν} {phase : φ}
    (hc : s.callers[c]? = some (.answered r phase)) :
    s.turnCaller C c =
      ({ s with stage := (C.resume phase r s.stage).2 } : Session _ _ _ _ _ _ _).follow C c
        (C.resume phase r s.stage).1 := by
  rw [turnCaller, hc]

/-- The turn of a caller is a step of each: of its own, one of those that its request allows; the
others stay as they are.

**Proof sketch.** The cases are those of the caller. One that is fresh or answered follows what its
request says, one that was freed settles its job, one that was cancelled gives up, and the others do
nothing. -/
lemma callerStep_turnCaller (c : Nat) :
    CallerStep C s c (.turn (.caller c)) s.callers[c]? (s.turnCaller C c).callers[c]? := by
  cases hc : s.callers[c]? with
  | none =>
    rw [turnCaller, hc]
    dsimp only
    rw [hc]
    exact .same _ _
  | some x =>
    cases x with
    | fresh phase =>
      obtain ⟨y, hy, hlead⟩ := callers_follow_self (C := C)
        (s := { s with stage := (C.start phase s.stage).2 }) hc (C.start phase s.stage).1
      rw [turnCaller_of_fresh hc, hy]
      exact .began phase hlead
    | answered r phase =>
      obtain ⟨y, hy, hlead⟩ := callers_follow_self (C := C)
        (s := { s with stage := (C.resume phase r s.stage).2 }) hc (C.resume phase r s.stage).1
      rw [turnCaller_of_answered hc, hy]
      exact .resumed r phase hlead
    | freed a job phase =>
      obtain ⟨r, hr⟩ := callers_settle_self (C := C) hc job phase a
      rw [turnCaller, hc]
      dsimp only
      rw [hr]
      exact .settled a job phase r
    | cancelled =>
      rw [turnCaller, hc]
      dsimp only
      rw [callers_setCaller_self hc]
      exact .gaveUp
    | waiting _ _ | held _ _ | finished _ =>
      rw [turnCaller, hc]
      dsimp only
      rw [hc]
      exact .same _ _

/-- The turn of a load moves no caller. -/
lemma callers_turnLoad (l : Nat) : (s.turnLoad C l).callers = s.callers := by
  unfold turnLoad
  split
  · rfl
  · next f _ =>
    split
    · split
      · next s' h => exact congrArg (fun p => p.2.callers) h.symm
      · next s' h => exact congrArg (fun p => p.2.callers) h.symm
    · rfl
    · rfl
    · rfl

/-! ## Moves -/

/-- **What becomes of a caller** in one move.

**Proof sketch.** Only a new caller, a cancellation, a released gate, a turn of the caller and a
delivery touch it, and each has its own lemma. All other moves leave it as it was. -/
theorem callerStep_move (c : Nat) (m : Move σ κ ν τ α φ) :
    CallerStep C s c m s.callers[c]? (s.move C m).callers[c]? := by
  cases m with
  | spawn phase => exact callerStep_spawn c phase
  | cancel d => exact callerStep_cancel c d
  | release gate a =>
    rw [move]
    rcases callers_release (s := s) gate a c with hsame | ⟨job, phase, hheld, hfreed⟩
    · rw [hsame]
      exact .same _ _
    · rw [hheld, hfreed]
      exact .freed gate a job phase
  | edit _ | elapse _ | stir _ | schedule _ => exact .same _ _
  | turn t =>
    cases t with
    | caller d =>
      by_cases hd : d = c
      · subst hd
        exact callerStep_turnCaller d
      · rw [move, turn, callers_turnCaller_ne hd]
        exact .same _ _
    | load l =>
      rw [move, turn, callers_turnLoad]
      exact .same _ _
    | deliver l d => exact callerStep_deliver c l d

/-! ## Runs -/

/-- Who has finished has finished for good. -/
lemma finished_move {c : Nat} {r : Outcome ν} (h : s.callers[c]? = some (.finished r))
    (m : Move σ κ ν τ α φ) : (s.move C m).callers[c]? = some (.finished r) := by
  have hstep := callerStep_move (C := C) (s := s) c m
  rw [h] at hstep
  generalize (s.move C m).callers[c]? = y at hstep ⊢
  cases hstep with
  | same => rfl
  | cancelled hx => exact absurd rfl (hx r)

/-- Who has finished stays finished, with the same result. -/
lemma finished_after {c : Nat} {r : Outcome ν} (h : s.callers[c]? = some (.finished r))
    (ms : List (Move σ κ ν τ α φ)) : (s.after C ms).callers[c]? = some (.finished r) := by
  induction ms generalizing s with
  | nil => exact h
  | cons m ms ih => exact ih (finished_move h m)

/-- No caller sees to a job of its own. -/
def Unladen (s : Session σ κ ν τ α φ δ) : Prop :=
  ∀ (c : Nat) x, s.callers[c]? = some x → x.isLaden = false

/-- Nobody comes to see to a job of its own if the client never says so, neither at the start of a
request nor when it is resumed.

**Proof sketch.** The cases are those of `callerStep_move`. A caller comes to see to a job only
where it begins or is resumed, and there the client does not say so. -/
lemma Unladen.move (H : Unladen s)
    (hstart : ∀ phase st job phase', (C.start phase st).1 ≠ .errand job phase')
    (hresume : ∀ phase r st job phase', (C.resume phase r st).1 ≠ .errand job phase')
    (m : Move σ κ ν τ α φ) : Unladen (s.move C m) := by
  intro c y hy
  have hstep := callerStep_move (C := C) (s := s) c m
  rw [hy] at hstep
  have hc := H c
  generalize s.callers[c]? = x at hstep hc ⊢
  cases hstep with
  | same => exact hc y rfl
  | began phase hlead => exact hlead.isLaden_eq_false (hstart phase s.stage)
  | resumed r phase hlead => exact hlead.isLaden_eq_false (hresume phase r s.stage)
  | freed gate a job phase => exact absurd (hc _ rfl) (by simp [Caller.isLaden])
  | spawned _ | cancelled _ | delivered _ _ | settled _ _ _ _ | gaveUp => rfl

/-- If callers leave all jobs to the loads, no caller ever has one of its own. -/
lemma Unladen.after (H : Unladen s)
    (hstart : ∀ phase st job phase', (C.start phase st).1 ≠ .errand job phase')
    (hresume : ∀ phase r st job phase', (C.resume phase r st).1 ≠ .errand job phase')
    (ms : List (Move σ κ ν τ α φ)) : Unladen (s.after C ms) := by
  induction ms generalizing s with
  | nil => exact H
  | cons m ms ih => exact ih (H.move hstart hresume m)

/-- Callers finish in their own turns. -/
lemma turn_of_finished {c : Nat} {r : Outcome ν} {m : Move σ κ ν τ α φ}
    (hs : s.callers[c]? ≠ some (.finished r))
    (h : (s.move C m).callers[c]? = some (.finished r)) : m = .turn (.caller c) := by
  have hstep := callerStep_move (C := C) (s := s) c m
  rw [h] at hstep
  generalize s.callers[c]? = x at hs hstep ⊢
  cases hstep with
  | same => exact absurd rfl hs
  | began _ _ | resumed _ _ _ | settled _ _ _ _ | gaveUp => rfl

/-- **The turn in which a caller finished.** Who has finished in a run did so in one of its own
turns. -/
theorem exists_finishing {c : Nat} {r : Outcome ν} {ms : List (Move σ κ ν τ α φ)}
    (hs : s.callers[c]? ≠ some (.finished r))
    (h : (s.after C ms).callers[c]? = some (.finished r)) :
    ∃ ms₁ ms₂, ms = ms₁ ++ .turn (.caller c) :: ms₂ ∧
      (s.after C ms₁).callers[c]? ≠ some (.finished r) ∧
      ((s.after C ms₁).move C (.turn (.caller c))).callers[c]? = some (.finished r) := by
  obtain ⟨ms₁, m, ms₂, rfl, hbefore, hafter⟩ :=
    exists_turning (P := fun s => s.callers[c]? = some (.finished r)) hs h
  obtain rfl := turn_of_finished hbefore hafter
  exact ⟨ms₁, ms₂, rfl, hbefore, hafter⟩

/-- The caller has got further than to its first turn, unless it was cancelled or has failed. -/
def HasBegun (s : Session σ κ ν τ α φ δ) (c : Nat) : Prop :=
  ∃ x, s.callers[c]? = some x ∧ x.hasBegun = true

/-- **The turn in which a caller began.**

**Proof sketch.** Some move made the caller begin, by `exists_turning`. The steps of callers that
lead from one that has not begun to one that has are those of a first turn. -/
theorem exists_beginning {c : Nat} {ms : List (Move σ κ ν τ α φ)} (hs : ¬ HasBegun s c)
    (h : HasBegun (s.after C ms) c) :
    ∃ ms₁ ms₂ phase, ms = ms₁ ++ .turn (.caller c) :: ms₂ ∧
      (s.after C ms₁).callers[c]? = some (.fresh phase) := by
  obtain ⟨ms₁, m, ms₂, rfl, hbefore, y, hy, hbegun⟩ :=
    exists_turning (P := fun s => HasBegun s c) hs h
  have hstep := callerStep_move (C := C) (s := s.after C ms₁) c m
  rw [hy] at hstep
  generalize hx : (s.after C ms₁).callers[c]? = x at hstep ⊢
  have hnot (x' : Caller κ ν τ α φ δ) (hx' : x = some x') : x'.hasBegun ≠ true :=
    fun hb => hbefore ⟨x', hx.trans hx', hb⟩
  cases hstep with
  | same => exact absurd hbegun (hnot y rfl)
  | began phase _ => exact ⟨ms₁, ms₂, phase, rfl, hx⟩
  | spawned _ | cancelled _ | gaveUp => exact absurd hbegun (by simp [Caller.hasBegun])
  | freed _ _ _ _ | delivered _ _ | resumed _ _ _ | settled _ _ _ _ => exact absurd rfl (hnot _ rfl)

end Session

end NodeKeeper
