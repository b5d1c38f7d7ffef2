import NodeKeeper.Proofs.Session.Due

/-!
# Cancelled callers and the others

A caller that waits for a load, or has got its outcome, has no influence on anything but itself.
Whether it is cancelled or not, all others fare the same, and so do the loads and the cache.

## Main definitions

* `Session.Alike` — two sessions differ in callers alone that have no influence any more.
* `Session.spareWaiting` — a run in which some callers that wait are not cancelled.

## Main results

* `Session.Alike.move`, `Session.Alike.pass` — sessions that are alike stay alike.
* `Session.alike_spareWaiting` — a run with cancelled callers, and the same run without.

## Implementation notes

The queues of two sessions that are alike differ in the turns of these callers. A turn that only one
of them takes changes nothing that counts; this is what a pass needs.
-/

namespace NodeKeeper

/-- The caller neither has its first turn before it nor sees to a job. -/
def Caller.isIdle {κ ν τ α φ δ : Type} : Caller κ ν τ α φ δ → Bool
  | .waiting _ _ | .answered _ _ | .cancelled | .finished _ => true
  | .fresh _ | .held _ _ | .freed _ _ _ => false

/-- The turn is that of one of these callers, or hands an outcome to one of them. -/
def Task.concerns (cs : List Nat) : Task → Bool
  | .caller c | .deliver _ c => cs.contains c
  | .load _ => false

namespace Session

variable {σ κ ν τ α φ δ : Type}

/-- Two sessions that differ in some idle callers alone, and in the turns of these. -/
structure Alike (cs : List Nat) (s s' : Session σ κ ν τ α φ δ) : Prop where
  stage : s.stage = s'.stage
  flights : s.flights = s'.flights
  gates : s.gates = s'.gates
  calls : s.calls = s'.calls
  length : s.callers.length = s'.callers.length
  others : ∀ c, c ∉ cs → s.callers[c]? = s'.callers[c]?
  idle : ∀ c ∈ cs, ∃ x x', s.callers[c]? = some x ∧ s'.callers[c]? = some x' ∧
    x.isIdle = true ∧ x'.isIdle = true
  queue : s.queue.filter (fun t => !t.concerns cs) = s'.queue.filter fun t => !t.concerns cs

namespace Alike

variable {cs : List Nat} {s s' s'' : Session σ κ ν τ α φ δ}

/-- A session differs from itself in nobody. -/
lemma refl (s : Session σ κ ν τ α φ δ) : Alike [] s s :=
  ⟨rfl, rfl, rfl, rfl, rfl, fun _ _ => rfl, fun _ h => absurd h (by simp), rfl⟩

/-- Two sessions that differ in some idle callers do so either way round. -/
lemma symm (H : Alike cs s s') : Alike cs s' s where
  stage := H.stage.symm
  flights := H.flights.symm
  gates := H.gates.symm
  calls := H.calls.symm
  length := H.length.symm
  others := fun c hc => (H.others c hc).symm
  idle := fun c hc =>
    let ⟨x, x', hx, hx', hi, hi'⟩ := H.idle c hc
    ⟨x', x, hx', hx, hi', hi⟩
  queue := H.queue.symm

/-- Differences in the same idle callers add up to no others. -/
lemma trans (H : Alike cs s s') (H' : Alike cs s' s'') : Alike cs s s'' where
  stage := H.stage.trans H'.stage
  flights := H.flights.trans H'.flights
  gates := H.gates.trans H'.gates
  calls := H.calls.trans H'.calls
  length := H.length.trans H'.length
  others := fun c hc => (H.others c hc).trans (H'.others c hc)
  idle := by
    intro c hc
    obtain ⟨x, x', hx, -, hi, -⟩ := H.idle c hc
    obtain ⟨y, y', -, hy', -, hi'⟩ := H'.idle c hc
    exact ⟨x, y', hx, hy', hi, hi'⟩
  queue := H.queue.trans H'.queue

/-! ### What both do -/

/-- The same stage can be put into both sessions. -/
lemma setStage (H : Alike cs s s') (stage : Stage σ κ ν τ) :
    Alike cs { s with stage } { s' with stage } :=
  { H with stage := rfl }

/-- The same tasks can be lined up in both sessions. -/
lemma enqueueAll (H : Alike cs s s') (ts : List Task) :
    Alike cs (s.enqueueAll ts) (s'.enqueueAll ts) :=
  { H with
    queue := by
      simp only [Session.enqueueAll, List.filter_append]
      rw [H.queue] }

/-- The same task can be lined up in both sessions. -/
lemma enqueue (H : Alike cs s s') (t : Task) : Alike cs (s.enqueue t) (s'.enqueue t) :=
  H.enqueueAll [t]

/-- The same load can be moved on in both sessions. -/
lemma setProgress (H : Alike cs s s') (l : Nat) (p : Progress κ ν τ α) :
    Alike cs (s.setProgress l p) (s'.setProgress l p) :=
  { H with flights := by simp only [Session.setProgress]; rw [H.flights] }

/-- The same load can be started in both sessions: its number is the same, as the loads are. -/
lemma startFlight (H : Alike cs s s') (l : Nat) (job : δ) :
    Alike cs (s.startFlight l job) (s'.startFlight l job) := by
  have hflights : Alike cs { s with flights := s.flights ++ [Flight.mk job .fresh []] }
      { s' with flights := s'.flights ++ [Flight.mk job .fresh []] } :=
    { H with flights := by rw [H.flights] }
  exact hflights.enqueue (.load l)

/-- The same task can be put to wait for an answer in both sessions. -/
lemma await (H : Alike cs s s') (name : String) (t : Task) :
    Alike cs (s.await name t) (s'.await name t) :=
  { H with gates := by simp only [Session.await]; rw [H.gates] }

/-- Both set one of the other callers. -/
lemma setCaller (H : Alike cs s s') {c : Nat} (hc : c ∉ cs) (x : Caller κ ν τ α φ δ) :
    Alike cs (s.setCaller c x) (s'.setCaller c x) :=
  { H with
    length := by simpa only [Session.setCaller, List.length_set] using H.length
    others := by
      intro d hd
      simp only [Session.setCaller, List.getElem?_set, H.length, H.others d hd]
    idle := by
      intro d hd
      have hne : c ≠ d := fun h => hc (h ▸ hd)
      rw [callers_setCaller_ne hne, callers_setCaller_ne hne]
      exact H.idle d hd }

/-- Only one of them sets an idle caller.

**Proof sketch.** The caller that is set is one of the idle ones, and stays idle. To all others
nothing has happened. -/
lemma setIdle (H : Alike cs s s') {c : Nat} (hc : c ∈ cs) {x : Caller κ ν τ α φ δ}
    (hx : x.isIdle = true) : Alike cs (s.setCaller c x) s' :=
  { H with
    length := by simpa only [Session.setCaller, List.length_set] using H.length
    others := by
      intro d hd
      have hne : c ≠ d := fun h => hd (h ▸ hc)
      rw [callers_setCaller_ne hne]
      exact H.others d hd
    idle := by
      intro d hd
      obtain ⟨y, y', hy, hy', hi, hi'⟩ := H.idle d hd
      by_cases hdc : c = d
      · subst hdc
        exact ⟨x, y', callers_setCaller_self hy x, hy', hx, hi'⟩
      · exact ⟨y, y', (callers_setCaller_ne hdc x).trans hy, hy', hi, hi'⟩ }

/-- A turn of an idle caller becomes due in only one of them. -/
lemma enqueueIdle (H : Alike cs s s') {t : Task} (ht : t.concerns cs = true) :
    Alike cs (s.enqueue t) s' :=
  { H with
    queue := by
      rw [← H.queue]
      simp [Session.enqueue, List.filter_append, ht] }

/-- A caller that is none of the idle ones can join the same load in both sessions. -/
lemma join (H : Alike cs s s') {c : Nat} (hc : c ∉ cs) (l : Nat) (phase : φ) :
    Alike cs (s.join l c phase) (s'.join l c phase) :=
  { H.setCaller hc (.waiting l phase) with
    flights := by simp only [Session.join]; rw [H.flights] }

/-! ### Moves from outside -/

/-- A new caller is none of the idle ones, and gets the same number in both sessions.

**Proof sketch.** As both sessions have the same number of callers, the new one comes to stand at
the same place, where none of the idle ones is. -/
lemma spawn (H : Alike cs s s') (phase : φ) : Alike cs (s.spawn phase).2 (s'.spawn phase).2 := by
  have hcallers : Alike cs { s with callers := s.callers ++ [Caller.fresh phase] }
      { s' with callers := s'.callers ++ [Caller.fresh phase] } :=
    { H with
      length := by simp only [List.length_append]; rw [H.length]
      others := by
        intro c hc
        simp only [List.getElem?_append, H.length, H.others c hc]
      idle := by
        intro c hc
        obtain ⟨x, x', hx, hx', hi⟩ := H.idle c hc
        have hleft {xs : List (Caller κ ν τ α φ δ)} {y z} (hy : xs[c]? = some y) :
            (xs ++ [z])[c]? = some y :=
          (List.getElem?_append_left (List.getElem?_eq_some_iff.1 hy).1).trans hy
        exact ⟨x, x', hleft hx, hleft hx', hi⟩ }
  have hspawn := hcallers.enqueue (.caller s.callers.length)
  simp only [Session.spawn]
  rw [← H.length]
  exact hspawn

/-- Cancelling an idle caller leaves it idle.

**Proof sketch.** The cases are those of an idle caller. If it is cancelled, it stays idle, and so
is the turn that becomes due. -/
lemma cancelIdle (H : Alike cs s s') {c : Nat} (hc : c ∈ cs) : Alike cs (s.cancel c).2 s' := by
  obtain ⟨x, x', hx, -, hi, -⟩ := H.idle c hc
  cases x with
  | waiting l phase =>
    simp only [Session.cancel, hx]
    exact (H.setIdle hc rfl).enqueueIdle (by simpa [Task.concerns] using hc)
  | answered r phase =>
    simp only [Session.cancel, hx]
    exact H.setIdle hc rfl
  | cancelled | finished _ =>
    simp only [Session.cancel, hx]
    exact H
  | fresh _ | held _ _ | freed _ _ _ => exact absurd hi (by simp [Caller.isIdle])

/-- To cancel a caller leaves no difference but in the idle ones: if it is one of them, it is idle
afterwards too. -/
lemma cancel (H : Alike cs s s') (c : Nat) : Alike cs (s.cancel c).2 (s'.cancel c).2 := by
  by_cases hc : c ∈ cs
  · exact ((H.cancelIdle hc).symm.cancelIdle hc).symm
  · simp only [Session.cancel, ← H.others c hc]
    cases s.callers[c]? with
    | none => exact H
    | some x =>
      cases x with
      | waiting _ _ | held _ _ => exact (H.setCaller hc .cancelled).enqueue (.caller c)
      | fresh _ | answered _ _ | freed _ _ _ => exact H.setCaller hc .cancelled
      | cancelled | finished _ => exact H

/-- An answer frees the same task in both sessions; idle callers do not wait for one.

**Proof sketch.** Only what is held at the gate is freed. Idle callers are not held there, so that
nothing happens if the task is one of theirs; any other task is the same in both sessions. -/
lemma free (H : Alike cs s s') (a : Answer κ ν τ α) (t : Task) :
    Alike cs (Session.free a s t) (Session.free a s' t) := by
  cases t with
  | caller c =>
    by_cases hc : c ∈ cs
    · obtain ⟨x, x', hx, hx', hi, hi'⟩ := H.idle c hc
      -- nobody who is idle waits at a gate
      have hfree {s : Session σ κ ν τ α φ δ} {x : Caller κ ν τ α φ δ} (hx : s.callers[c]? = some x)
          (hi : x.isIdle = true) : Session.free a s (.caller c) = s := by
        cases x with
        | waiting _ _ | answered _ _ | cancelled | finished _ => simp only [Session.free, hx]
        | fresh _ | held _ _ | freed _ _ _ => exact absurd hi (by simp [Caller.isIdle])
      rw [hfree hx hi, hfree hx' hi']
      exact H
    · simp only [Session.free, ← H.others c hc]
      cases s.callers[c]? with
      | none => exact H
      | some x =>
        cases x with
        | held job phase => exact (H.setCaller hc (.freed a job phase)).enqueue (.caller c)
        | fresh _ | waiting _ _ | answered _ _ | freed _ _ _ | cancelled | finished _ => exact H
  | load l =>
    simp only [Session.free, ← H.flights]
    split
    · exact (H.setProgress l (.freed a)).enqueue (.load l)
    · exact H
  | deliver l c => exact H

/-- An answer frees the same tasks in both sessions, one after the other. -/
lemma release (H : Alike cs s s') (gate : String) (a : Answer κ ν τ α) :
    Alike cs (s.release gate a).2 (s'.release gate a).2 := by
  have hfold (ts : List Task) {s s' : Session σ κ ν τ α φ δ} (H : Alike cs s s') :
      Alike cs (ts.foldl (Session.free a) s) (ts.foldl (Session.free a) s') := by
    induction ts generalizing s s' with
    | nil => exact H
    | cons t ts ih => exact ih (H.free a t)
  simp only [Session.release, ← H.gates]
  split
  · exact H
  · exact hfold _ { H with gates := rfl }

/-! ### Turns -/

variable [DecidableEq κ] [Keylike κ] [Add τ] [LE τ] [DecidableLE τ]
variable {C : Client σ κ ν τ α φ δ}

omit [DecidableEq κ] [Keylike κ] [Add τ] [LE τ] [DecidableLE τ] in
/-- The same is asked for in both sessions, and the same is responded, as the stages are the
same. -/
lemma ask (H : Alike cs s s') (job : δ) :
    (s.ask C job).1 = (s'.ask C job).1 ∧ Alike cs (s.ask C job).2 (s'.ask C job).2 := by
  refine ⟨by simp only [Session.ask, H.stage], ?_⟩
  simp only [Session.ask, ← H.stage]
  exact { H with stage := rfl, calls := by rw [H.calls] }

/-- The same load lands in both sessions, and the same waiters are told. -/
lemma land (H : Alike cs s s') (l : Nat) (f : Flight κ ν τ α δ) (a : Answer κ ν τ α) :
    Alike cs (s.land C l f a) (s'.land C l f a) := by
  simp only [Session.land, ← H.stage]
  exact ((H.setStage _).setProgress l _).enqueueAll _

/-- A caller that is none of the idle ones settles its job alike in both sessions. -/
lemma settle (H : Alike cs s s') {c : Nat} (hc : c ∉ cs) (job : δ) (phase : φ)
    (a : Answer κ ν τ α) : Alike cs (s.settle C c job phase a) (s'.settle C c job phase a) := by
  simp only [Session.settle, ← H.stage]
  exact (H.setStage _).setCaller hc _

/-- A caller that is none of the idle ones goes on alike in both sessions.

**Proof sketch.** A caller that is none of the idle ones finishes, joins a load, or sets out to see
to a job of its own, and finds the same stage, the same loads, and the same answers in both
sessions. -/
lemma follow (H : Alike cs s s') {c : Nat} (hc : c ∉ cs) (next : Turn ν φ δ) :
    Alike cs (s.follow C c next) (s'.follow C c next) := by
  cases next with
  | done r => exact H.setCaller hc (.finished r)
  | wait l job phase =>
    cases job with
    | none => exact H.join hc l phase
    | some job => exact (H.startFlight l job).join hc l phase
  | errand job phase =>
    obtain ⟨hfst, hsnd⟩ := H.ask (C := C) job
    simp only [Session.follow]
    revert hfst hsnd
    rcases s.ask C job with ⟨r, s₁⟩
    rcases s'.ask C job with ⟨r', s₁'⟩
    rintro rfl hsnd
    cases r with
    | now a => exact hsnd.settle hc job phase a
    | gate name => exact (hsnd.await name (.caller c)).setCaller hc (.held job phase)

/-- The turn of another caller.

**Proof sketch.** The caller is in the same state in both sessions, and so is the stage. -/
lemma turnCaller (H : Alike cs s s') {c : Nat} (hc : c ∉ cs) :
    Alike cs (s.turnCaller C c) (s'.turnCaller C c) := by
  simp only [Session.turnCaller, ← H.others c hc, ← H.stage]
  cases s.callers[c]? with
  | none => exact H
  | some x =>
    cases x with
    | fresh phase => exact (H.setStage _).follow hc _
    | answered r phase => exact (H.setStage _).follow hc _
    | freed a job phase => exact H.settle hc job phase a
    | cancelled => exact H.setCaller hc _
    | waiting _ _ | held _ _ | finished _ => exact H

/-- The turn of an idle caller, in only one of them.

**Proof sketch.** The cases are those of an idle caller. Its turn ends it at most, and an ended
caller is idle. -/
lemma turnIdle (H : Alike cs s s') (hR : Relays C) {c : Nat} (hc : c ∈ cs) :
    Alike cs (s.turnCaller C c) s' := by
  obtain ⟨x, x', hx, -, hi, -⟩ := H.idle c hc
  cases x with
  | answered r phase =>
    rw [turnCaller_of_answered hx, hR]
    exact H.setIdle hc rfl
  | cancelled =>
    simp only [Session.turnCaller, hx]
    exact H.setIdle hc rfl
  | waiting _ _ | finished _ =>
    simp only [Session.turnCaller, hx]
    exact H
  | fresh _ | held _ _ | freed _ _ _ => exact absurd hi (by simp [Caller.isIdle])

/-- A load takes the same turn in both sessions.

**Proof sketch.** The load is at the same point in both sessions. It calls for its job and is
answered alike, lands with the answer that it was freed with, or does nothing. -/
lemma turnLoad (H : Alike cs s s') (l : Nat) :
    Alike cs (s.turnLoad C l) (s'.turnLoad C l) := by
  simp only [Session.turnLoad, ← H.flights]
  cases s.flights[l]? with
  | none => exact H
  | some f =>
    cases hp : f.progress with
    | fresh =>
      obtain ⟨hfst, hsnd⟩ := H.ask (C := C) f.job
      simp only [hp]
      revert hfst hsnd
      rcases s.ask C f.job with ⟨r, s₁⟩
      rcases s'.ask C f.job with ⟨r', s₁'⟩
      rintro rfl hsnd
      cases r with
      | now a => exact hsnd.land l f a
      | gate name => exact (hsnd.await name (.load l)).setProgress l .held
    | freed a =>
      simp only [hp]
      exact H.land l f a
    | held | landed _ =>
      simp only [hp]
      exact H

omit [DecidableEq κ] [Keylike κ] [Add τ] [LE τ] [DecidableLE τ] in
/-- What a load came to is delivered alike in both sessions to a caller that is none of the idle
ones. -/
lemma deliver (H : Alike cs s s') (l : Nat) {c : Nat} (hc : c ∉ cs) :
    Alike cs (s.deliver l c) (s'.deliver l c) := by
  simp only [Session.deliver, ← H.flights, ← H.others c hc]
  split
  · split
    · exact (H.setCaller hc _).enqueue (.caller c)
    · exact H
  · exact H

omit [DecidableEq κ] [Keylike κ] [Add τ] [LE τ] [DecidableLE τ] in
/-- An outcome is handed to an idle caller, in only one of them. -/
lemma deliverIdle (H : Alike cs s s') (l : Nat) {c : Nat} (hc : c ∈ cs) :
    Alike cs (s.deliver l c) s' := by
  simp only [Session.deliver]
  split
  · split
    · exact (H.setIdle hc rfl).enqueueIdle (by simpa [Task.concerns] using hc)
    · exact H
  · exact H

/-- A turn of an idle caller, or for one, in only one of them. -/
lemma turn_left (H : Alike cs s s') (hR : Relays C) {t : Task} (ht : t.concerns cs = true) :
    Alike cs (s.turn C t) s' := by
  cases t with
  | caller c => exact H.turnIdle hR (by simpa [Task.concerns] using ht)
  | load l => exact absurd ht (by simp [Task.concerns])
  | deliver l c => exact H.deliverIdle l (by simpa [Task.concerns] using ht)

/-- The same turn in both. -/
lemma turn (H : Alike cs s s') (hR : Relays C) (t : Task) :
    Alike cs (s.turn C t) (s'.turn C t) := by
  by_cases ht : t.concerns cs = true
  · exact ((H.turn_left hR ht).symm.turn_left hR ht).symm
  · cases t with
    | caller c => exact H.turnCaller (by simpa [Task.concerns] using ht)
    | load l => exact H.turnLoad l
    | deliver l c => exact H.deliver l (by simpa [Task.concerns] using ht)

/-! ### Legs -/

/-- **The same move** in both.

**Proof sketch.** Each kind of move has its own lemma above; what changes the stage finds the same
one in both sessions. -/
theorem move (H : Alike cs s s') (hR : Relays C) (m : Move σ κ ν τ α φ) :
    Alike cs (s.move C m) (s'.move C m) := by
  cases m with
  | spawn phase => exact H.spawn phase
  | cancel c => exact H.cancel c
  | release gate a => exact H.release gate a
  | edit e =>
    simp only [Session.move, ← H.stage]
    exact H.setStage _
  | elapse later =>
    simp only [Session.move, ← H.stage]
    exact H.setStage _
  | stir f =>
    simp only [Session.move, ← H.stage]
    exact H.setStage _
  | schedule queue => exact { H with queue := rfl }
  | turn t => exact H.turn hR t

/-- The turns of idle callers do not count. -/
lemma foldl_filter (hR : Relays C) (H : Alike cs s s') (ts : List Task) :
    Alike cs (ts.foldl (Session.turn C) s)
      ((ts.filter fun t => !t.concerns cs).foldl (Session.turn C) s') := by
  induction ts generalizing s s' with
  | nil => exact H
  | cons t ts ih =>
    by_cases ht : t.concerns cs = true
    · rw [List.filter_cons_of_neg (by simp [ht])]
      exact ih (H.turn_left hR ht)
    · rw [List.filter_cons_of_pos (by simp [ht])]
      exact ih (H.turn hR t)

/-- **A pass** in both. Each takes the turns that are due there.

**Proof sketch.** The turns that are due are the same but for those of idle callers, and those do
not count. -/
theorem pass (H : Alike cs s s') (hR : Relays C) : Alike cs (s.pass C) (s'.pass C) := by
  have hstart : Alike cs { s with queue := [] } { s' with queue := [] } := { H with queue := rfl }
  have hleft := foldl_filter hR hstart s.queue
  have hright := foldl_filter hR (hstart.symm.trans hstart) s'.queue
  rw [H.queue] at hleft
  exact hleft.trans hright.symm

/-- **The same leg** in both. -/
theorem leg (H : Alike cs s s') (hR : Relays C) (w : Leg σ κ ν τ α φ) :
    Alike cs (s.leg C w) (s'.leg C w) := by
  cases w with
  | move m => exact H.move hR m
  | pass => exact H.pass hR

end Alike

/-! ## Runs with and without -/

section Runs

variable [DecidableEq κ] [Keylike κ] [Add τ] [LE τ] [DecidableLE τ]
variable {C : Client σ κ ν τ α φ δ} {s s' : Session σ κ ν τ α φ δ}

/-- The caller waits for a load, or has got its outcome. -/
def waits (s : Session σ κ ν τ α φ δ) (c : Nat) : Bool :=
  match s.callers[c]? with
  | some (.waiting _ _) | some (.answered _ _) => true
  | _ => false

variable (C) in
/-- The same legs, but for cancelling some callers while they wait. -/
def spareWaiting (spared : Nat → Bool) (s : Session σ κ ν τ α φ δ) :
    List (Leg σ κ ν τ α φ) → List (Leg σ κ ν τ α φ)
  | [] => []
  | .move (.cancel c) :: ws =>
    if spared c && s.waits c then spareWaiting spared (s.move C (.cancel c)) ws
    else .move (.cancel c) :: spareWaiting spared (s.move C (.cancel c)) ws
  | w :: ws => w :: spareWaiting spared (s.leg C w) ws

omit [DecidableEq κ] [Keylike κ] [Add τ] [LE τ] [DecidableLE τ] in
/-- A caller that waits is idle, and may be told apart as well.

**Proof sketch.** To let the sessions differ in one more caller is less to ask for. That it is idle
in both is known, as it waits. -/
lemma Alike.insert {cs : List Nat} (H : Alike cs s s') {c : Nat} (hc : s.waits c = true) :
    Alike (c :: cs) s s' where
  stage := H.stage
  flights := H.flights
  gates := H.gates
  calls := H.calls
  length := H.length
  others := fun d hd => H.others d fun h => hd (List.mem_cons_of_mem _ h)
  idle := by
    intro d hd
    by_cases hmem : d ∈ cs
    · exact H.idle d hmem
    · obtain rfl : d = c := (List.mem_cons.1 hd).resolve_right hmem
      have hsame := H.others d hmem
      rw [← hsame]
      unfold waits at hc
      split at hc
      · next l phase h => exact ⟨_, _, h, h, rfl, rfl⟩
      · next r phase h => exact ⟨_, _, h, h, rfl, rfl⟩
      · exact absurd hc (by simp)
  queue := by
    have hfilter (ts : List Task) : ts.filter (fun t => !t.concerns (c :: cs)) =
        (ts.filter fun t => !t.concerns cs).filter fun t => !t.concerns (c :: cs) := by
      rw [List.filter_filter]
      refine List.filter_congr fun t _ => ?_
      cases t <;> simp [Task.concerns]
    rw [hfilter, H.queue, ← hfilter]

/-- **A run with cancelled callers, and the same run without.** They come to sessions that differ in
these callers alone.

**Proof sketch.** As long as a caller is cancelled in neither run, both do the same. When it is
cancelled in one of them, it is idle in both, and stays so. -/
theorem alike_spareWaiting (hR : Relays C) (spared : Nat → Bool) {cs : List Nat}
    (H : Alike cs s s') (hcs : ∀ c ∈ cs, spared c = true) (ws : List (Leg σ κ ν τ α φ)) :
    ∃ cs', (∀ c ∈ cs', spared c = true) ∧
      Alike cs' (s.along C ws) (s'.along C (spareWaiting C spared s ws)) := by
  induction ws generalizing s s' cs with
  | nil => exact ⟨cs, hcs, H⟩
  | cons w ws ih =>
    have hboth (hw : spareWaiting C spared s (w :: ws) =
        w :: spareWaiting C spared (s.leg C w) ws) :
        ∃ cs', (∀ c ∈ cs', spared c = true) ∧
          Alike cs' (s.along C (w :: ws)) (s'.along C (spareWaiting C spared s (w :: ws))) := by
      rw [hw]
      exact ih (H.leg hR w) hcs
    cases w with
    | pass => exact hboth rfl
    | move m =>
      cases m with
      | cancel c =>
        by_cases hc : (spared c && s.waits c) = true
        · have hw : spareWaiting C spared s (.move (.cancel c) :: ws) =
              spareWaiting C spared (s.move C (.cancel c)) ws := by
            rw [spareWaiting, if_pos hc]
          rw [Bool.and_eq_true] at hc
          rw [hw]
          refine ih ((H.insert hc.2).cancelIdle List.mem_cons_self) fun d hd => ?_
          rcases List.mem_cons.1 hd with rfl | hd
          · exact hc.1
          · exact hcs d hd
        · refine hboth ?_
          rw [spareWaiting, if_neg hc]
          rfl
      | spawn _ | release _ _ | edit _ | elapse _ | stir _ | schedule _ | turn _ => exact hboth rfl

end Runs

end Session

end NodeKeeper
