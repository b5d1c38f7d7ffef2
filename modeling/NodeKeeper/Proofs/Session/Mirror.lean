import NodeKeeper.Proofs.Session.Course

/-!
# Sessions that mirror each other

Two sessions are compared move by move. What their clients do to the cache and to the rest of the
world is one half of such a comparison; callers, loads, gates and turns are the other. The second
half is the same in every comparison, and is done here once: whoever says how answers, values,
phases and jobs of one session are found again in the other, and that the two clients keep their
stages tied, gets that all moves do.

## Main definitions

* `Mirror` — how answers, values, phases and jobs of a session are found again in another one.
* `Mirror.caller`, `Mirror.flight`, `Mirror.turn`, `Mirror.response` — the same for what holds them.
* `Mirror.Tie` — when two stages are tied to each other.
* `Mirror.Tie.Kept` — two clients decide the same, and keep their stages tied.
* `Session.Mirrored` — a session mirrors another one.

## Main results

* `Session.Mirrored.spawn`, `Session.Mirrored.cancel`, `Session.Mirrored.release` — moves from
  outside keep two sessions mirrored.
* `Session.Mirrored.turn` — so does every turn.

## Implementation notes

A comparison may need that the clock is not turned back while an answer is played. It is enough to
know this of one of the two sessions, since both clocks show the same.
-/

namespace NodeKeeper

/-! ## Mirrors -/

/-- How answers, values, phases and jobs of a session are found again in another one. -/
structure Mirror (κ ν τ α φ δ : Type) where
  answer : Answer κ ν τ α → Answer κ ν τ α
  value : ν → ν
  phase : φ → φ
  job : δ → δ

namespace Mirror

variable {σ σ' κ ν τ α φ δ : Type} (M : Mirror κ ν τ α φ δ)

/-- Faults are the same in both sessions. -/
def outcome (r : Outcome ν) : Outcome ν := r.map M.value

/-- The mirror image of a response to a call. -/
def response : Response κ ν τ α → Response κ ν τ α
  | .now a => .now (M.answer a)
  | .gate name => .gate name

/-- The mirror image of what a caller says at the end of its turn. -/
def turn : Turn ν φ δ → Turn ν φ δ
  | .done r => .done (M.outcome r)
  | .wait l job phase => .wait l (job.map M.job) (M.phase phase)
  | .errand job phase => .errand (M.job job) (M.phase phase)

/-- The mirror image of a caller. -/
def caller : Caller κ ν τ α φ δ → Caller κ ν τ α φ δ
  | .fresh phase => .fresh (M.phase phase)
  | .waiting l phase => .waiting l (M.phase phase)
  | .answered r phase => .answered (M.outcome r) (M.phase phase)
  | .held job phase => .held (M.job job) (M.phase phase)
  | .freed a job phase => .freed (M.answer a) (M.job job) (M.phase phase)
  | .cancelled => .cancelled
  | .finished r => .finished (M.outcome r)

/-- The mirror image of how far a load has come. -/
def progress : Progress κ ν τ α → Progress κ ν τ α
  | .fresh => .fresh
  | .held => .held
  | .freed a => .freed (M.answer a)
  | .landed r => .landed (M.outcome r)

/-- The mirror image of a load: the same callers wait for it. -/
def flight (f : Flight κ ν τ α δ) : Flight κ ν τ α δ :=
  { f with job := M.job f.job, progress := M.progress f.progress }

/-- Those who wait for a load see the same of its outcome. -/
lemma forWaiter_outcome (r : Outcome ν) :
    Session.forWaiter (M.outcome r) = M.outcome (Session.forWaiter r) := by
  cases r with
  | ok v => rfl
  | error f =>
    simp only [outcome, Except.map, Session.forWaiter]
    split <;> rfl

/-- A caller has failed if and only if it has in the other session, with the same fault. -/
lemma caller_eq_failed_iff {x : Caller κ ν τ α φ δ} {f : Fault} :
    M.caller x = .finished (.error f) ↔ x = .finished (.error f) := by
  cases x with
  | finished r => cases r <;> simp [caller, outcome, Except.map]
  | fresh _ | waiting _ _ | answered _ _ | held _ _ | freed _ _ _ | cancelled => simp [caller]

/-- A caller has got a value if and only if it has got another one in the other session. -/
lemma caller_eq_served_iff {x : Caller κ ν τ α φ δ} {w : ν} :
    M.caller x = .finished (.ok w) ↔ ∃ v, x = .finished (.ok v) ∧ w = M.value v := by
  cases x with
  | finished r => cases r <;> simp [caller, outcome, Except.map, eq_comm]
  | fresh _ | waiting _ _ | answered _ _ | held _ _ | freed _ _ _ | cancelled => simp [caller]

end Mirror

/-! ## Ties -/

section Ties

variable {σ σ' κ ν τ α φ δ : Type} [Add τ] [LE τ] [DecidableLE τ] [DecidableEq κ] [Keylike κ]

/-- The end of the load of a number, if it has not finished. -/
def Stage.endLoad (st : Stage σ κ ν τ) (l : Nat) (r : Outcome ν) : Stage σ κ ν τ :=
  (st.cache.loads.find? fun m => m.id == l).elim st fun load => st.finish load r

omit [Add τ] [LE τ] [DecidableLE τ] in
/-- The end of a load takes no time and leaves the rest of the world alone; the cache closes the
load. -/
lemma Stage.endLoad_spec (st : Stage σ κ ν τ) (l : Nat) (r : Outcome ν) :
    (st.endLoad l r).now = st.now ∧ (st.endLoad l r).rest = st.rest ∧
      (st.endLoad l r).cache = st.cache.close st.now l r.toOption := by
  rw [Cache.close, Stage.endLoad]
  cases st.cache.loads.find? fun m => m.id == l with
  | none => exact ⟨rfl, rfl, rfl⟩
  | some load =>
    have hledger := st.ledger_finish load r []
    exact ⟨congrArg Cache.Ledger.now hledger, st.rest_finish load r,
      congrArg Cache.Ledger.cache hledger⟩

/-- When two stages are tied to each other: their clocks show the same, and they stay tied while an
answer is played, in a timely way, and when a load ends. -/
structure Mirror.Tie (M : Mirror κ ν τ α φ δ) (σ σ' : Type) where
  Tied : Stage σ κ ν τ → Stage σ' κ ν τ → Prop
  Timely : τ → τ → Prop
  now_eq : ∀ {st st'}, Tied st st' → st.now = st'.now
  play : ∀ a {st st'}, Tied st st' →
    Timely st.now (Session.play a st).now ∨
      Timely st'.now (Session.play (M.answer a) st').now →
    Tied (Session.play a st) (Session.play (M.answer a) st')
  endLoad : ∀ l r {st st'}, Tied st st' → Tied (st.endLoad l r) (st'.endLoad l (M.outcome r))

variable {M : Mirror κ ν τ α φ δ}

/-- Two clients decide the same, and keep their stages tied. -/
structure Mirror.Tie.Kept (T : M.Tie σ σ') (C : Client σ κ ν τ α φ δ)
    (C' : Client σ' κ ν τ α φ δ) : Prop where
  start : ∀ phase {st st'}, T.Tied st st' →
    (C'.start (M.phase phase) st').1 = M.turn (C.start phase st).1 ∧
      T.Tied (C.start phase st).2 (C'.start (M.phase phase) st').2
  resume : ∀ phase r {st st'}, T.Tied st st' →
    (C'.resume (M.phase phase) (M.outcome r) st').1 = M.turn (C.resume phase r st).1 ∧
      T.Tied (C.resume phase r st).2 (C'.resume (M.phase phase) (M.outcome r) st').2
  call : ∀ job {st st'}, T.Tied st st' →
    (C'.call (M.job job) st').1 = M.response (C.call job st).1 ∧
      T.Tied (C.call job st).2 (C'.call (M.job job) st').2
  conclude : ∀ job a {st st'}, T.Tied st st' →
    (C'.conclude (M.job job) (M.answer a).outcome st').1 =
        M.outcome (C.conclude job a.outcome st).1 ∧
      T.Tied (C.conclude job a.outcome st).2
        (C'.conclude (M.job job) (M.answer a).outcome st').2
  settle : ∀ phase r {st st'}, T.Tied st st' →
    (C'.settle (M.phase phase) (M.outcome r) st').1 = M.outcome (C.settle phase r st).1 ∧
      T.Tied (C.settle phase r st).2 (C'.settle (M.phase phase) (M.outcome r) st').2

/-- Time goes on in a timely way, in one of two sessions or in the other. -/
def Mirror.Tie.Onward (T : M.Tie σ σ') (s s₁ : Session σ κ ν τ α φ δ)
    (s' s₁' : Session σ' κ ν τ α φ δ) : Prop :=
  T.Timely s.stage.now s₁.stage.now ∨ T.Timely s'.stage.now s₁'.stage.now

end Ties

/-! ## Sessions -/

namespace Session

variable {σ σ' κ ν τ α φ δ : Type} [Add τ] [LE τ] [DecidableLE τ] [DecidableEq κ] [Keylike κ]
variable {M : Mirror κ ν τ α φ δ}

/-- A session mirrors another one: its stage is tied to the other, and all else is found again. -/
structure Mirrored (T : M.Tie σ σ') (s : Session σ κ ν τ α φ δ)
    (s' : Session σ' κ ν τ α φ δ) : Prop where
  stage : T.Tied s.stage s'.stage
  callers : s'.callers = s.callers.map M.caller
  flights : s'.flights = s.flights.map M.flight
  gates : s'.gates = s.gates
  queue : s'.queue = s.queue
  calls : s'.calls = s.calls.map M.job

namespace Mirrored

variable {T : M.Tie σ σ'} {s : Session σ κ ν τ α φ δ} {s' : Session σ' κ ν τ α φ δ}

/-- A caller is found again in the mirror, at its own place. -/
lemma getElem?_callers (H : Mirrored T s s') (c : Nat) :
    s'.callers[c]? = (s.callers[c]?).map M.caller := by
  rw [H.callers, List.getElem?_map]

/-- A load is found again in the mirror, at its own place. -/
lemma getElem?_flights (H : Mirrored T s s') (l : Nat) :
    s'.flights[l]? = (s.flights[l]?).map M.flight := by
  rw [H.flights, List.getElem?_map]

/-! ### Parts of moves -/

/-- Tied stages can be put into both sessions. -/
lemma setStage (H : Mirrored T s s') {stage : Stage σ κ ν τ} {stage' : Stage σ' κ ν τ}
    (hst : T.Tied stage stage') : Mirrored T { s with stage } { s' with stage := stage' } :=
  { H with stage := hst }

/-- The same tasks can be lined up in both sessions. -/
lemma enqueueAll (H : Mirrored T s s') (ts : List Task) :
    Mirrored T (s.enqueueAll ts) (s'.enqueueAll ts) :=
  { H with queue := by simp only [Session.enqueueAll, H.queue] }

/-- The same task can be lined up in both sessions. -/
lemma enqueue (H : Mirrored T s s') (t : Task) :
    Mirrored T (s.enqueue t) (s'.enqueue t) :=
  H.enqueueAll [t]

/-- A caller and its mirror image can be set in both sessions. -/
lemma setCaller (H : Mirrored T s s') (c : Nat) {x x' : Caller κ ν τ α φ δ}
    (hx : x' = M.caller x) : Mirrored T (s.setCaller c x) (s'.setCaller c x') :=
  { H with callers := by simp only [Session.setCaller, H.callers, hx, List.map_set] }

/-- A load gets somewhere, or is joined. -/
lemma modifyFlight (H : Mirrored T s s') (l : Nat)
    {g g' : Flight κ ν τ α δ → Flight κ ν τ α δ} (hg : ∀ f, g' (M.flight f) = M.flight (g f)) :
    Mirrored T { s with flights := s.flights.modify l g }
      { s' with flights := s'.flights.modify l g' } :=
  { H with
    flights := by
      refine List.ext_getElem? fun m => ?_
      simp only [H.flights, List.getElem?_map, List.getElem?_modify]
      cases s.flights[m]? with
      | none => simp
      | some f => by_cases hm : l = m <;> simp [hm, hg] }

/-- A load can be moved on in both sessions, in the mirror to the image of its progress. -/
lemma setProgress (H : Mirrored T s s') (l : Nat) {p p' : Progress κ ν τ α}
    (hp : p' = M.progress p) : Mirrored T (s.setProgress l p) (s'.setProgress l p') :=
  H.modifyFlight l fun f => by rw [hp]; rfl

/-- A load for a job, and one for its mirror image, can be started in both sessions. -/
lemma startFlight (H : Mirrored T s s') (l : Nat) (job : δ) :
    Mirrored T (s.startFlight l job) (s'.startFlight l (M.job job)) := by
  have hflights : Mirrored T { s with flights := s.flights ++ [Flight.mk job .fresh []] }
      { s' with flights := s'.flights ++ [Flight.mk (M.job job) .fresh []] } :=
    { H with flights := by simp [H.flights, Mirror.flight, Mirror.progress] }
  exact hflights.enqueue (.load l)

/-- A caller can join a load in both sessions. -/
lemma join (H : Mirrored T s s') (l c : Nat) (phase : φ) :
    Mirrored T (s.join l c phase) (s'.join l c (M.phase phase)) := by
  let joined (f : Flight κ ν τ α δ) : Flight κ ν τ α δ := { f with waiters := f.waiters ++ [c] }
  have hflights : Mirrored T { s with flights := s.flights.modify l joined }
      { s' with flights := s'.flights.modify l joined } :=
    H.modifyFlight l fun _ => rfl
  exact hflights.setCaller c rfl

/-- The same task can be put to wait for an answer in both sessions. -/
lemma await (H : Mirrored T s s') (name : String) (t : Task) :
    Mirrored T (s.await name t) (s'.await name t) :=
  { H with gates := by simp only [Session.await, H.gates] }

/-! ### Moves from outside -/

/-- A new caller, and its mirror image, can come to both sessions. -/
lemma spawn (H : Mirrored T s s') (phase : φ) :
    Mirrored T (s.spawn phase).2 (s'.spawn (M.phase phase)).2 := by
  have hcallers : Mirrored T { s with callers := s.callers ++ [Caller.fresh phase] }
      { s' with callers := s'.callers ++ [Caller.fresh (M.phase phase)] } :=
    { H with callers := by simp [H.callers, Mirror.caller] }
  have hlength : s'.callers.length = s.callers.length := by rw [H.callers, List.length_map]
  simp only [Session.spawn, hlength]
  exact hcallers.enqueue (.caller s.callers.length)

/-- The same caller can be cancelled in both sessions. -/
lemma cancel (H : Mirrored T s s') (c : Nat) :
    Mirrored T (s.cancel c).2 (s'.cancel c).2 := by
  simp only [Session.cancel, H.getElem?_callers]
  cases s.callers[c]? with
  | none => exact H
  | some x =>
    cases x with
    | waiting _ _ | held _ _ => exact (H.setCaller c rfl).enqueue (.caller c)
    | fresh _ | answered _ _ | freed _ _ _ => exact H.setCaller c rfl
    | cancelled | finished _ => exact H

/-- An answer frees a task, and its mirror image frees the same task in the mirror.

**Proof sketch.** The task is held in both sessions or in neither, as the mirror image of what is
held is held. -/
lemma free (H : Mirrored T s s') (a : Answer κ ν τ α) (t : Task) :
    Mirrored T (Session.free a s t) (Session.free (M.answer a) s' t) := by
  cases t with
  | caller c =>
    simp only [Session.free, H.getElem?_callers]
    cases s.callers[c]? with
    | none => exact H
    | some x =>
      cases x with
      | held job phase => exact (H.setCaller c rfl).enqueue (.caller c)
      | fresh _ | waiting _ _ | answered _ _ | freed _ _ _ | cancelled | finished _ => exact H
  | load l =>
    simp only [Session.free, H.getElem?_flights]
    cases s.flights[l]? with
    | none => exact H
    | some f =>
      cases hp : f.progress with
      | held =>
        simp only [Option.map_some, Mirror.flight, hp, Mirror.progress]
        exact (H.setProgress l rfl).enqueue (.load l)
      | fresh | freed _ | landed _ =>
        simp only [Option.map_some, Mirror.flight, hp, Mirror.progress]
        exact H
  | deliver l c => exact H

/-- An answer is released in one session, and its mirror image in the other.

**Proof sketch.** The same tasks wait at the gate in both sessions, and are freed one by one. -/
lemma release (H : Mirrored T s s') (gate : String) (a : Answer κ ν τ α) :
    Mirrored T (s.release gate a).2 (s'.release gate (M.answer a)).2 := by
  have hfold (ts : List Task) {s : Session σ κ ν τ α φ δ} {s' : Session σ' κ ν τ α φ δ}
      (H : Mirrored T s s') : Mirrored T (ts.foldl (Session.free a) s)
        (ts.foldl (Session.free (M.answer a)) s') := by
    induction ts generalizing s s' with
    | nil => exact H
    | cons t ts ih => exact ih (H.free a t)
  simp only [Session.release, H.gates]
  cases s.gates.lookup gate with
  | none => exact H
  | some waiting => exact hfold waiting { H with gates := rfl }

/-- What a load came to is delivered in both sessions.

**Proof sketch.** The load has landed in both sessions or in neither, and the caller waits for it in
both or in neither. The outcome for waiters is mirrored like any other. -/
lemma deliver (H : Mirrored T s s') (l c : Nat) :
    Mirrored T (s.deliver l c) (s'.deliver l c) := by
  simp only [Session.deliver, H.getElem?_flights, H.getElem?_callers]
  cases s.flights[l]? with
  | none => exact H
  | some f =>
    cases hp : f.progress with
    | landed r =>
      simp only [Option.map_some, Mirror.flight, hp, Mirror.progress]
      cases s.callers[c]? with
      | none => exact H
      | some x =>
        cases x with
        | waiting m phase =>
          simp only [Option.map_some, Mirror.caller, M.forWaiter_outcome]
          split
          · exact (H.setCaller c rfl).enqueue (.caller c)
          · exact H
        | fresh _ | answered _ _ | held _ _ | freed _ _ _ | cancelled | finished _ => exact H
    | fresh | held | freed _ =>
      simp only [Option.map_some, Mirror.flight, hp, Mirror.progress]
      exact H

/-! ### Turns -/

/-- A load that lands, with the end of the load apart. -/
lemma land_eq (C : Client σ κ ν τ α φ δ) (s : Session σ κ ν τ α φ δ) (l : Nat)
    (f : Flight κ ν τ α δ) (a : Answer κ ν τ α) :
    s.land C l f a =
      let (r, st) := C.conclude f.job a.outcome (play a s.stage)
      ({ s with stage := st.endLoad l r }.setProgress l (.landed r)).enqueueAll
        (f.waiters.map (.deliver l)) := by
  unfold land Stage.endLoad
  dsimp only
  cases (C.conclude f.job a.outcome (play a s.stage)).2.cache.loads.find? fun m => m.id == l <;> rfl

variable {C : Client σ κ ν τ α φ δ} {C' : Client σ' κ ν τ α φ δ} (hT : T.Kept C C')

omit [Keylike κ] in
/-- To call for a job takes no time. -/
lemma ask_now (K : Conduct C) (s : Session σ κ ν τ α φ δ) (job : δ) :
    (s.ask C job).2.stage.now = s.stage.now :=
  congrArg Cache.Ledger.now (ledger_ask K s job)

include hT in
/-- A job is asked for in one session and its mirror image in the other; the responses mirror each
other. -/
lemma ask (H : Mirrored T s s') (job : δ) :
    (s'.ask C' (M.job job)).1 = M.response (s.ask C job).1 ∧
      Mirrored T (s.ask C job).2 (s'.ask C' (M.job job)).2 := by
  obtain ⟨hresponse, hstage⟩ := hT.call job H.stage
  exact ⟨hresponse, { H with
    stage := hstage
    calls := by simp only [Session.ask, H.calls, List.map_append, List.map_cons, List.map_nil] }⟩

variable (K : Conduct C) (K' : Conduct C')

include hT K K'

/-- A load lands in both.

**Proof sketch.** The answer and its mirror image are played; the clients conclude with outcomes
that mirror each other, as they are kept by the tie. The ends of the loads are tied as well, and the
waiters are the same. -/
lemma land (H : Mirrored T s s') {l : Nat} {f : Flight κ ν τ α δ}
    (hf : s.flights[l]? = some f) (a : Answer κ ν τ α)
    (ht : T.Onward s (s.land C l f a) s' (s'.land C' l (M.flight f) (M.answer a))) :
    Mirrored T (s.land C l f a) (s'.land C' l (M.flight f) (M.answer a)) := by
  have hf' : s'.flights[l]? = some (M.flight f) := by rw [H.getElem?_flights, hf, Option.map_some]
  have hnow : (s.land C l f a).stage.now = (play a s.stage).now :=
    congrArg Cache.Ledger.now (ledger_land K hf a)
  have hnow' : (s'.land C' l (M.flight f) (M.answer a)).stage.now =
      (play (M.answer a) s'.stage).now :=
    congrArg Cache.Ledger.now (ledger_land K' hf' (M.answer a))
  rw [Mirror.Tie.Onward, hnow, hnow'] at ht
  obtain ⟨hr, hstage⟩ := hT.conclude f.job a (T.play a H.stage ht)
  rw [land_eq, land_eq]
  dsimp only
  rw [show (M.flight f).job = M.job f.job from rfl, hr]
  exact ((H.setStage (T.endLoad l _ hstage)).setProgress l rfl).enqueueAll _

/-- A caller settles its own job in both. -/
lemma settle (H : Mirrored T s s') (c : Nat) (job : δ) (phase : φ) (a : Answer κ ν τ α)
    (ht : T.Onward s (s.settle C c job phase a) s'
      (s'.settle C' c (M.job job) (M.phase phase) (M.answer a))) :
    Mirrored T (s.settle C c job phase a)
      (s'.settle C' c (M.job job) (M.phase phase) (M.answer a)) := by
  rw [Mirror.Tie.Onward, now_settle K, now_settle K'] at ht
  obtain ⟨hr, hstage⟩ := hT.conclude job a (T.play a H.stage ht)
  obtain ⟨hr', hstage'⟩ := hT.settle phase (C.conclude job a.outcome (play a s.stage)).1 hstage
  simp only [Session.settle, hr, hr']
  exact (H.setStage hstage').setCaller c rfl

/-- What a caller decided takes place in both.

**Proof sketch.** The cases are those of what was decided. A job of one's own is asked for in both
sessions, by `ask`, and is settled, or waited for, in both. -/
lemma follow (H : Mirrored T s s') (c : Nat) (next : Turn ν φ δ)
    (ht : T.Onward s (s.follow C c next) s' (s'.follow C' c (M.turn next))) :
    Mirrored T (s.follow C c next) (s'.follow C' c (M.turn next)) := by
  cases next with
  | done r => exact H.setCaller c rfl
  | wait l job phase =>
    cases job with
    | none => exact H.join l c phase
    | some job => exact (H.startFlight l job).join l c phase
  | errand job phase =>
    obtain ⟨hfst, hsnd⟩ := H.ask hT job
    have hnow := ask_now K s job
    have hnow' := ask_now K' s' (M.job job)
    simp only [Session.follow, Mirror.turn] at ht ⊢
    revert ht hfst hsnd hnow hnow'
    rcases s.ask C job with ⟨r, s₁⟩
    rcases s'.ask C' (M.job job) with ⟨r', s₁'⟩
    rintro ht rfl hsnd hnow hnow'
    cases r with
    | now a =>
      rw [Mirror.Tie.Onward, ← hnow, ← hnow'] at ht
      exact hsnd.settle hT K K' c job phase a ht
    | gate name => exact (hsnd.await name (.caller c)).setCaller c rfl

/-- The turn of a caller mirrors its turn in the other session, provided that the ties hold onward.

**Proof sketch.** The cases are those of the turn: by the tie the client starts, resumes and
concludes images of requests with images of what it starts, resumes and concludes without the
mirror; the rest are the lemmas above. -/
lemma turnCaller (H : Mirrored T s s') (c : Nat)
    (ht : T.Onward s (s.turnCaller C c) s' (s'.turnCaller C' c)) :
    Mirrored T (s.turnCaller C c) (s'.turnCaller C' c) := by
  -- what the clients decide is the same, and takes no time
  have hfollow {stage : Stage σ κ ν τ} {stage' : Stage σ' κ ν τ} {next next' : Turn ν φ δ}
      (hst : next' = M.turn next ∧ T.Tied stage stage') (hnow : stage.now = s.stage.now)
      (ht : T.Onward s (({ s with stage } : Session _ _ _ _ _ _ _).follow C c next) s'
        (({ s' with stage := stage' } : Session _ _ _ _ _ _ _).follow C' c next')) :
      Mirrored T (({ s with stage } : Session _ _ _ _ _ _ _).follow C c next)
        (({ s' with stage := stage' } : Session _ _ _ _ _ _ _).follow C' c next') := by
    obtain ⟨rfl, hstage⟩ := hst
    have hnow' : stage'.now = s'.stage.now := by
      rw [← T.now_eq hstage, hnow, T.now_eq H.stage]
    rw [Mirror.Tie.Onward, ← hnow, ← hnow'] at ht
    exact (H.setStage hstage).follow hT K K' c next ht
  simp only [Session.turnCaller, H.getElem?_callers] at ht ⊢
  cases hc : s.callers[c]? with
  | none => exact H
  | some x =>
    simp only [hc] at ht
    cases x with
    | fresh phase => exact hfollow (hT.start phase H.stage) (K.start_now phase s.stage) ht
    | answered r phase =>
      exact hfollow (hT.resume phase r H.stage) (K.resume_now phase r s.stage) ht
    | freed a job phase => exact H.settle hT K K' c job phase a ht
    | cancelled => exact H.setCaller c rfl
    | waiting _ _ | held _ _ | finished _ => exact H

/-- The turn of a load mirrors its turn in the other session, provided that the ties hold onward.

**Proof sketch.** The load is at the same point in both sessions. It asks for its job and for the
mirror image, by `ask`, or lands with an answer and its mirror image, by `land`. -/
lemma turnLoad (H : Mirrored T s s') (l : Nat)
    (ht : T.Onward s (s.turnLoad C l) s' (s'.turnLoad C' l)) :
    Mirrored T (s.turnLoad C l) (s'.turnLoad C' l) := by
  simp only [Session.turnLoad, H.getElem?_flights] at ht ⊢
  cases hf : s.flights[l]? with
  | none => exact H
  | some f =>
    simp only [hf, Option.map_some] at ht ⊢
    rw [show (M.flight f).progress = M.progress f.progress from rfl,
      show (M.flight f).job = M.job f.job from rfl] at ht ⊢
    cases hp : f.progress with
    | fresh =>
      obtain ⟨hfst, hsnd⟩ := H.ask hT f.job
      have hnow := ask_now K s f.job
      have hnow' := ask_now K' s' (M.job f.job)
      have hflights : (s.ask C f.job).2.flights[l]? = some f := hf
      simp only [hp, Mirror.progress] at ht ⊢
      revert hfst hsnd hnow hnow' hflights ht
      rcases s.ask C f.job with ⟨r, s₁⟩
      rcases s'.ask C' (M.job f.job) with ⟨r', s₁'⟩
      rintro rfl hsnd hnow hnow' hflights ht
      cases r with
      | now a =>
        rw [Mirror.Tie.Onward, ← hnow, ← hnow'] at ht
        exact hsnd.land hT K K' hflights a ht
      | gate name => exact (hsnd.await name (.load l)).setProgress l rfl
    | freed a =>
      simp only [hp, Mirror.progress] at ht ⊢
      exact H.land hT K K' hf a ht
    | held | landed _ => exact H

/-- **One turn** in both. -/
theorem turn (H : Mirrored T s s') (t : Task)
    (ht : T.Onward s (s.turn C t) s' (s'.turn C' t)) :
    Mirrored T (s.turn C t) (s'.turn C' t) := by
  cases t with
  | caller c => exact H.turnCaller hT K K' c ht
  | load l => exact H.turnLoad hT K K' l ht
  | deliver l c => exact H.deliver l c

end Mirrored

end Session

end NodeKeeper
