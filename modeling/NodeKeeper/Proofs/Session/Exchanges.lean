import NodeKeeper.Proofs.Session.Errands

/-!
# Answers and the calls that they answer

Whoever has an answer to a job has asked for it, and the answer is the one that the call came to: it
came at once, or the call named a gate, and what was released there later on is the answer. Nobody
gets the answer of another gate, and nobody asks twice.

## Main definitions

* `Session.Arrives` — how the answer to a call comes to the one who has called.

## Main results

* `Session.exists_asks_of_mem_waitingAt` — who waits at a gate has asked, and was sent there.
* `Session.exists_asks_of_obtains`, `Session.exists_asks_of_earns` — the call that an answer belongs
  to, for a load and for a caller that sees to a job itself.
* `Session.exists_release_of_plays` — an answer that does not come at once came through a gate.

## Implementation notes

Somebody outside decides which answer is released at a gate, and when. What is shown is that an
answer reaches those alone whose calls have named the gate.
-/

namespace NodeKeeper

/-- The caller has called for the job, and has not got further than to its end since. -/
def Caller.hasAskedFor {κ ν τ α φ δ : Type} (job : δ) : Caller κ ν τ α φ δ → Prop
  | .held j _ | .freed _ j _ => j = job
  | .cancelled | .finished _ => True
  | .fresh _ | .waiting _ _ | .answered _ _ => False

namespace Session

variable {σ κ ν τ α φ δ : Type}

/-- How the answer to a call comes to the one who has called. The call was made in a turn, when
certain moves had happened. If the response is an answer, it is there in this very turn; and if it
is a gate, it is there once it has been released at this gate. -/
inductive Arrives (t : Task) (called : List (Move σ κ ν τ α φ)) (a : Answer κ ν τ α) :
    Response κ ν τ α → List (Move σ κ ν τ α φ) → Prop
  | atOnce : Arrives t called a (.now a) called
  | released {gate : String} {between : List (Move σ κ ν τ α φ)}
      (h : .release gate a ∈ between) :
      Arrives t called a (.gate gate) (called ++ .turn t :: between)

/-- An answer is not there before it is called for. -/
lemma prefix_of_arrives {t : Task} {called received : List (Move σ κ ν τ α φ)} {a : Answer κ ν τ α}
    {r : Response κ ν τ α} (h : Arrives t called a r received) : called <+: received := by
  cases h with
  | atOnce => exact List.prefix_rfl
  | released _ => exact List.prefix_append _ _

variable [DecidableEq κ] [Keylike κ] [Add τ] [LE τ] [DecidableLE τ]
  {C : Client σ κ ν τ α φ δ} {s : Session σ κ ν τ α φ δ}

/-! ## Who waits at gates -/

/-- Who waits at a gate after a turn has waited there before, or has asked in this turn and was sent
there.

**Proof sketch.** A turn that does not ask leaves the gates alone, by `turn_of_not_asks`. One that
asks either gets its answer at once, or is put at the one gate where it was sent. -/
lemma mem_waitingAt_turn {t t' : Task} {gate : String} (h : t ∈ (s.turn C t').waitingAt gate) :
    t ∈ s.waitingAt gate ∨
      t = t' ∧ ∃ job st, Asks C s t job st ∧ (C.call job st).1 = .gate gate := by
  by_cases hasks : ∃ job st, Asks C s t' job st
  · obtain ⟨job, st, hasks⟩ := hasks
    have hsent {name : String} (hr : (C.call job st).1 = .gate name)
        (h : t ∈ ((asked C s job st).await name t').waitingAt gate) :
        t ∈ s.waitingAt gate ∨
          t = t' ∧ ∃ job st, Asks C s t job st ∧ (C.call job st).1 = .gate gate := by
      rw [waitingAt_await] at h
      split at h
      · next hgate =>
        subst hgate
        refine (List.mem_append.1 h).imp id fun ht => ?_
        obtain rfl := List.mem_singleton.1 ht
        exact ⟨rfl, job, st, hasks, hr⟩
      · exact Or.inl h
    have hturn := hasks.turn
    generalize s.turn C t' = s' at hturn h
    cases hturn with
    | loadWaits hr => exact hsent hr h
    | callerWaits _ hr => exact hsent hr h
    | loadLands _ _ | callerSettles _ _ => exact Or.inl h
  · have hgates := (turn_of_not_asks fun job st hj => hasks ⟨job, st, hj⟩).2
    rw [waitingAt, hgates] at h
    exact Or.inl h

/-- The same for every move: nobody comes to wait at a gate without having asked.

**Proof sketch.** Only turns send somebody to a gate. To release one empties it, and a cancelled
caller stays where it waits. -/
lemma mem_waitingAt_move {t : Task} {gate : String} {m : Move σ κ ν τ α φ}
    (h : t ∈ (s.move C m).waitingAt gate) :
    t ∈ s.waitingAt gate ∨
      m = .turn t ∧ ∃ job st, Asks C s t job st ∧ (C.call job st).1 = .gate gate := by
  cases m with
  | turn t' =>
    refine (mem_waitingAt_turn h).imp id fun ⟨htask, hasks⟩ => ?_
    exact ⟨congrArg Move.turn htask.symm, hasks⟩
  | release name a =>
    rw [move, waitingAt_release] at h
    split at h
    · exact absurd h List.not_mem_nil
    · exact Or.inl h
  | cancel c =>
    refine Or.inl ?_
    rw [waitingAt, move, gates_cancel] at h
    exact h
  | spawn _ | edit _ | elapse _ | stir _ | schedule _ => exact Or.inl h

/-- **Who waits at a gate has asked**, and the response of the call was this gate.

**Proof sketch.** By induction on the run, from its last move: a move brings nobody to a gate but
the one who asks in it. -/
theorem exists_asks_of_mem_waitingAt (hs : s.gates = []) {ms : List (Move σ κ ν τ α φ)} {t : Task}
    {gate : String} (h : t ∈ (s.after C ms).waitingAt gate) :
    ∃ ms₁ ms₂ job st, ms = ms₁ ++ .turn t :: ms₂ ∧ Asks C (s.after C ms₁) t job st ∧
      (C.call job st).1 = .gate gate := by
  induction ms using List.reverseRecOn with
  | nil => exact absurd h (by simp [waitingAt, hs])
  | append_singleton ms m ih =>
    rw [after_append] at h
    rcases mem_waitingAt_move h with hbefore | ⟨rfl, job, st, hasks, hr⟩
    · obtain ⟨ms₁, ms₂, job, st, rfl, hasks, hr⟩ := ih hbefore
      exact ⟨ms₁, ms₂ ++ [m], job, st, by simp, hasks, hr⟩
    · exact ⟨ms, [], job, st, rfl, hasks, hr⟩

/-! ## Nobody asks for two jobs -/

/-- A caller that has asked for a job does not go on to anything else: it waits for the answer, has
it, was cancelled, or has finished.

**Proof sketch.** Induction on the run, from its end. Of the steps of a caller only those are
possible which free it, cancel it, settle its job, or let it give up. -/
lemma hasAskedFor_after {c : Nat} {job : δ} {st : Stage σ κ ν τ}
    (h : Asks C s (.caller c) job st) (ms : List (Move σ κ ν τ α φ)) :
    ∃ x, ((s.turn C (.caller c)).after C ms).callers[c]? = some x ∧ x.hasAskedFor job := by
  induction ms using List.reverseRecOn with
  | nil =>
    have hturn := h.turn
    rw [after_nil]
    generalize s.turn C (.caller c) = s' at hturn ⊢
    cases hturn with
    | callerWaits hc _ => exact ⟨_, callers_setCaller_self (s := s) hc _, rfl⟩
    | callerSettles hc _ => exact ⟨_, callers_setCaller_self (s := s) hc _, trivial⟩
  | append_singleton ms m ih =>
    obtain ⟨x, hx, hasked⟩ := ih
    rw [after_append, after_cons, after_nil]
    have hstep := callerStep_move (C := C) (s := (s.turn C (.caller c)).after C ms) c m
    rw [hx] at hstep
    generalize (((s.turn C (.caller c)).after C ms).move C m).callers[c]? = y at hstep ⊢
    cases hstep with
    | same => exact ⟨x, rfl, hasked⟩
    | freed gate a j p => exact ⟨_, rfl, hasked⟩
    | cancelled _ | settled _ _ _ _ | gaveUp => exact ⟨_, rfl, trivial⟩
    | delivered _ _ | began _ _ | resumed _ _ _ => exact hasked.elim

/-- A load that waits for an answer has asked for its own job.

**Proof sketch.** By `exists_asks_of_mem_waitingAt` the load asked for some job, in one of its
turns. A load asks for its own job, and never changes it. -/
lemma exists_asks_of_load {l : Nat} {f : Flight κ ν τ α δ} {ms : List (Move σ κ ν τ α φ)}
    (hs : s.gates = []) (hf : (s.after C ms).flights[l]? = some f) {gate : String}
    (h : .load l ∈ (s.after C ms).waitingAt gate) :
    ∃ ms₁ ms₂, ms = ms₁ ++ .turn (.load l) :: ms₂ ∧
      Asks C (s.after C ms₁) (.load l) f.job (s.after C ms₁).stage ∧
        (C.call f.job (s.after C ms₁).stage).1 = .gate gate := by
  obtain ⟨ms₁, ms₂, job, st, rfl, hasks, hr⟩ := exists_asks_of_mem_waitingAt hs h
  refine ⟨ms₁, ms₂, rfl, ?_⟩
  cases hasks with
  | @load _ g hg hp =>
    -- a load keeps its job
    obtain ⟨f', hf', hcont⟩ :=
      continued_after (C := C) (s := s.after C ms₁) (.turn (.load l) :: ms₂) l g hg
    rw [after_append] at hf
    obtain rfl := Option.some.inj (hf.symm.trans hf')
    rw [hcont.job]
    exact ⟨.load hg hp, hr⟩

/-- A caller that waits for an answer has asked for the job that it sees to.

**Proof sketch.** Who waits at a gate has asked before, by `exists_asks_of_mem_waitingAt`. A caller
that has asked sees to the same job from then on, so it is this one. -/
lemma exists_asks_of_caller {c : Nat} {x : Caller κ ν τ α φ δ} {ms : List (Move σ κ ν τ α φ)}
    (hs : s.gates = []) (hc : (s.after C ms).callers[c]? = some x) {job : δ} (hx : x.seesTo job)
    {gate : String} (h : .caller c ∈ (s.after C ms).waitingAt gate) :
    ∃ ms₁ ms₂ st, ms = ms₁ ++ .turn (.caller c) :: ms₂ ∧ Asks C (s.after C ms₁) (.caller c) job st ∧
      (C.call job st).1 = .gate gate := by
  obtain ⟨ms₁, ms₂, job', st, rfl, hasks, hr⟩ := exists_asks_of_mem_waitingAt hs h
  obtain ⟨y, hy, hasked⟩ := hasAskedFor_after hasks ms₂
  rw [after_append] at hc
  obtain rfl := Option.some.inj (hc.symm.trans hy)
  obtain rfl : job' = job := by
    cases x with
    | held j p | freed a j p => exact (hasked : j = job').symm.trans hx
    | fresh _ | waiting _ _ | answered _ _ | cancelled | finished _ => exact hx.elim
  exact ⟨ms₁, ms₂, st, rfl, hasks, hr⟩

/-! ## Answers that are released -/

/-- A load whose gate has opened waited at this gate when the answer was released there.

**Proof sketch.** The load was held before some move and has the answer after it. This move opens a
gate, and a gate that opens moves nobody who does not wait there. -/
lemma exists_release_of_freed_load (hs : s.flights = []) {ms : List (Move σ κ ν τ α φ)} {l : Nat}
    {f : Flight κ ν τ α δ} {a : Answer κ ν τ α} (hf : (s.after C ms).flights[l]? = some f)
    (hp : f.progress = .freed a) :
    ∃ ms₁ gate ms₂ g, ms = ms₁ ++ .release gate a :: ms₂ ∧
      (s.after C ms₁).flights[l]? = some g ∧ g.job = f.job ∧
        .load l ∈ (s.after C ms₁).waitingAt gate := by
  obtain ⟨ms₁, m, ms₂, rfl, hbefore, f', hf', hafter⟩ := exists_turning
    (P := fun s : Session σ κ ν τ α φ δ => ∃ f, s.flights[l]? = some f ∧ f.progress = .freed a)
    (fun ⟨_, hx, _⟩ => absurd hx (by simp [hs])) ⟨f, hf, hp⟩
  obtain ⟨f'', hf'', hcont⟩ := continued_after (C := C) (s := (s.after C ms₁).move C m) ms₂ l f' hf'
  rw [after_append, after_cons] at hf
  obtain rfl := Option.some.inj (hf.symm.trans hf'')
  have hmoved : ((s.after C ms₁).move C m).flights[l]? ≠ (s.after C ms₁).flights[l]? :=
    fun hsame => hbefore ⟨f', hsame.symm.trans hf', hafter⟩
  have hstep := flightStep_move (C := C) (s := s.after C ms₁) l m
  rw [hf'] at hstep
  generalize hx : (s.after C ms₁).flights[l]? = x at hstep
  cases hstep with
  | same => exact absurd (hf'.trans hx.symm) hmoved
  | joined c g => exact absurd ⟨g, hx, hafter⟩ hbefore
  | started _ _ _ | held _ | landed _ _ => exact absurd hafter (by simp)
  | @freed gate b g hheld =>
    obtain rfl := Progress.freed.inj hafter
    refine ⟨ms₁, gate, ms₂, g, rfl, hx, hcont.job.symm, ?_⟩
    by_contra hnot
    exact hmoved (flights_release_of_not_mem hnot b)

/-- So did a caller that sees to a job itself.

**Proof sketch.** Some move made the caller one that was freed, by `exists_turning`. No step of a
caller leads there but a gate that is released; and this gate must be one where it waits, as others
do not touch it. -/
lemma exists_release_of_freed_caller (hs : s.callers = []) {ms : List (Move σ κ ν τ α φ)} {c : Nat}
    {a : Answer κ ν τ α} {job : δ} {phase : φ}
    (hc : (s.after C ms).callers[c]? = some (.freed a job phase)) :
    ∃ ms₁ gate ms₂, ms = ms₁ ++ .release gate a :: ms₂ ∧
      (s.after C ms₁).callers[c]? = some (.held job phase) ∧
        .caller c ∈ (s.after C ms₁).waitingAt gate := by
  obtain ⟨ms₁, m, ms₂, rfl, hbefore, hafter⟩ := exists_turning
    (P := fun s : Session σ κ ν τ α φ δ => s.callers[c]? = some (.freed a job phase))
    (by simp [hs]) hc
  have hstep := callerStep_move (C := C) (s := s.after C ms₁) c m
  rw [hafter] at hstep
  generalize hx : (s.after C ms₁).callers[c]? = x at hstep
  cases hstep with
  | same => exact absurd hx hbefore
  | began _ hlead => exact absurd hlead Turn.LeadsTo.ne_freed
  | resumed _ _ hlead => exact absurd hlead Turn.LeadsTo.ne_freed
  | freed gate =>
    refine ⟨ms₁, gate, ms₂, rfl, hx, ?_⟩
    by_contra hnot
    exact hbefore ((callers_release_of_not_mem hnot a).symm.trans hafter)

/-! ## The call that an answer belongs to -/

/-- **The call of a load that has its answer**: the load asked for its own job in its first turn,
and the answer is what this call has come to.

**Proof sketch.** Either the answer comes at once, in this very turn. Or it was released at a gate
at which the load waited, and there it was sent by its call. -/
theorem exists_asks_of_obtains (hgates : s.gates = []) (hflights : s.flights = [])
    {ms : List (Move σ κ ν τ α φ)} {l : Nat} {f : Flight κ ν τ α δ} {a : Answer κ ν τ α}
    (hf : (s.after C ms).flights[l]? = some f) (h : Obtains C (s.after C ms) f a) :
    ∃ called, Asks C (s.after C called) (.load l) f.job (s.after C called).stage ∧
      Arrives (.load l) called a (C.call f.job (s.after C called).stage).1 ms := by
  rcases h with ⟨hp, hnow⟩ | hfreed
  · refine ⟨ms, .load hf hp, ?_⟩
    rw [show (C.call f.job (s.after C ms).stage).1 = .now a from hnow]
    exact .atOnce
  · obtain ⟨ms₁, gate, ms₂, g, rfl, hg, hjob, hwaits⟩ :=
      exists_release_of_freed_load hflights hf hfreed
    obtain ⟨called, between, rfl, hasks, hr⟩ := exists_asks_of_load hgates hg hwaits
    rw [hjob] at hasks hr
    refine ⟨called, hasks, ?_⟩
    rw [hr, List.append_assoc, List.cons_append]
    exact .released (by simp)

/-- **The call of a caller that has the answer to its own job**: it asked for this job, and the
answer is what this call has come to.

**Proof sketch.** If the answer comes at once, the turn is the one in which the caller asks. If it
was waiting, it was released at a gate where the caller waited, and there it was sent when it asked,
for the job that it is held for. -/
theorem exists_asks_of_earns (hgates : s.gates = []) (hcallers : s.callers = [])
    {ms : List (Move σ κ ν τ α φ)} {c : Nat} {a : Answer κ ν τ α} {job : δ} {phase : φ}
    {st : Stage σ κ ν τ} (h : Earns C (s.after C ms) c a job phase st) :
    ∃ called st, Asks C (s.after C called) (.caller c) job st ∧
      Arrives (.caller c) called a (C.call job st).1 ms := by
  cases h with
  | @first p st₁ _ hc hn ha =>
    refine ⟨ms, st₁, .first hc hn, ?_⟩
    rw [ha]
    exact .atOnce
  | @later r p st₁ _ hc hn ha =>
    refine ⟨ms, st₁, .later hc hn, ?_⟩
    rw [ha]
    exact .atOnce
  | freed hc =>
    obtain ⟨ms₁, gate, ms₂, rfl, hheld, hwaits⟩ := exists_release_of_freed_caller hcallers hc
    obtain ⟨called, between, st, rfl, hasks, hr⟩ := exists_asks_of_caller hgates hheld rfl hwaits
    refine ⟨called, st, hasks, ?_⟩
    rw [hr, List.append_assoc, List.cons_append]
    exact .released (by simp)

/-- An answer that is played was released at a gate, if nobody is answered at once.

**Proof sketch.** The answer is that of a load or of a caller, and each has asked for it. As nobody
is answered at once, it was released at the gate where it was sent. -/
theorem exists_release_of_plays (hgate : ∀ job st a, (C.call job st).1 ≠ .now a)
    (hgates : s.gates = []) (hcallers : s.callers = []) (hflights : s.flights = [])
    {ms : List (Move σ κ ν τ α φ)} {a : Answer κ ν τ α} {t : Task}
    (h : Plays C (s.after C ms) a t) : ∃ gate, .release gate a ∈ ms := by
  have hreleased {t : Task} {called : List (Move σ κ ν τ α φ)} {job : δ} {st : Stage σ κ ν τ}
      (h : Arrives t called a (C.call job st).1 ms) : ∃ gate, .release gate a ∈ ms := by
    generalize hr : (C.call job st).1 = r at h
    cases h with
    | atOnce => exact absurd hr (hgate job st a)
    | @released gate between hmem =>
      exact ⟨gate, List.mem_append_right _ (List.mem_cons_of_mem _ hmem)⟩
  cases t with
  | deliver l c => exact h.elim
  | load l =>
    obtain ⟨f, hf, h⟩ := h
    obtain ⟨called, -, harrives⟩ := exists_asks_of_obtains hgates hflights hf h
    exact hreleased harrives
  | caller c =>
    obtain ⟨job, phase, st, h⟩ := h
    obtain ⟨called, st', -, harrives⟩ := exists_asks_of_earns hgates hcallers h
    exact hreleased harrives

end Session

end NodeKeeper
