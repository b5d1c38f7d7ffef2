import Mathlib.Data.List.Induction
import NodeKeeper.Proofs.Session.Arising
import NodeKeeper.Proofs.Session.Course
import NodeKeeper.Proofs.Session.Gates

/-!
# What a session asks outside

A session notes down every job that it calls for. Nothing is noted down without the client's call
being evaluated, and the call is not evaluated without being noted down: both happen in one step,
which is taken by a load in its first turn, or by a caller that decides to see to a job itself. So
whatever the calls leave behind in the rest of the world is there once for each job on the list.

## Main definitions

* `Session.Asks` — in a turn, the client's call is evaluated for a job.
* `Session.Aloof` — a client does not touch a part of the world, except by its calls.

## Main results

* `Session.Asks.calls_turn`, `Session.turn_of_not_asks` — a turn that asks notes down its job,
  and no other turn notes down anything.
* `Session.Asks.view_turn`, `Session.Aloof.view_turn_of_not_asks` — a turn that asks leaves the
  world as the call left it, and no other turn changes it.
* `Session.exists_asks_of_calls` — each job on the list was asked for in a turn of its own.
* `Session.Aloof.record_after` — a world that keeps a record of the calls has recorded the list.

## Implementation notes

What is seen of the world is given by a function of it. A client may well use the world in its own
turns, as it draws a suffix or gives out a serial number; only what is seen has to stay as it is.
-/

namespace NodeKeeper.Session

variable {σ κ ν τ α φ δ β ω : Type} [DecidableEq κ] [Keylike κ] [Add τ] [LE τ] [DecidableLE τ]

/-- In a turn, somebody asks outside for what a job needs: a load, whose first turn this is, or a
caller that decides to see to the job itself. The client's call is evaluated at the stage that is
given, which is the one of the session, or what the caller has made of it by then. -/
inductive Asks (C : Client σ κ ν τ α φ δ) (s : Session σ κ ν τ α φ δ) :
    Task → δ → Stage σ κ ν τ → Prop
  /-- A load takes its first turn. -/
  | load {l : Nat} {f : Flight κ ν τ α δ} (hf : s.flights[l]? = some f)
      (hp : f.progress = .fresh) : Asks C s (.load l) f.job s.stage
  /-- A caller decides so in its first turn. -/
  | first {c : Nat} {p phase : φ} {job : δ} {st : Stage σ κ ν τ}
      (hc : s.callers[c]? = some (.fresh p)) (hn : C.start p s.stage = (.errand job phase, st)) :
      Asks C s (.caller c) job st
  /-- A caller decides so after a load has ended. -/
  | later {c : Nat} {r : Outcome ν} {p phase : φ} {job : δ} {st : Stage σ κ ν τ}
      (hc : s.callers[c]? = some (.answered r p))
      (hn : C.resume p r s.stage = (.errand job phase, st)) : Asks C s (.caller c) job st

variable {C : Client σ κ ν τ α φ δ} {s : Session σ κ ν τ α φ δ} {t : Task} {job : δ}
  {st : Stage σ κ ν τ}

/-! ## Turns that ask -/

/-- The session once the client's call was evaluated for a job, at a stage. -/
def asked (C : Client σ κ ν τ α φ δ) (s : Session σ κ ν τ α φ δ) (job : δ) (st : Stage σ κ ν τ) :
    Session σ κ ν τ α φ δ :=
  { s with stage := (C.call job st).2, calls := s.calls ++ [job] }

/-- How a turn goes in which somebody asks: the session after it. Whoever has asked comes to wait at
the gate that the call has named, or goes on with the answer that came at once. -/
inductive AskTurn (C : Client σ κ ν τ α φ δ) (s : Session σ κ ν τ α φ δ) (job : δ)
    (st : Stage σ κ ν τ) : Task → Session σ κ ν τ α φ δ → Prop
  | loadWaits {l : Nat} {gate : String} (hr : (C.call job st).1 = .gate gate) :
      AskTurn C s job st (.load l) (((asked C s job st).await gate (.load l)).setProgress l .held)
  | loadLands {l : Nat} {f : Flight κ ν τ α δ} {a : Answer κ ν τ α} (hjob : f.job = job)
      (hr : (C.call job st).1 = .now a) :
      AskTurn C s job st (.load l) ((asked C s job st).land C l f a)
  | callerWaits {c : Nat} {phase : φ} {gate : String} {x : Caller κ ν τ α φ δ}
      (hc : s.callers[c]? = some x) (hr : (C.call job st).1 = .gate gate) :
      AskTurn C s job st (.caller c)
        (((asked C s job st).await gate (.caller c)).setCaller c (.held job phase))
  | callerSettles {c : Nat} {phase : φ} {a : Answer κ ν τ α} {x : Caller κ ν τ α φ δ}
      (hc : s.callers[c]? = some x) (hr : (C.call job st).1 = .now a) :
      AskTurn C s job st (.caller c) ((asked C s job st).settle C c job phase a)

/-- A caller that has decided to see to a job itself asks for what it needs. -/
lemma askTurn_follow {c : Nat} {x : Caller κ ν τ α φ δ} (hc : s.callers[c]? = some x) (phase : φ) :
    AskTurn C s job st (.caller c)
      (({ s with stage := st } : Session _ _ _ _ _ _ _).follow C c (.errand job phase)) := by
  have hfollow : ({ s with stage := st } : Session _ _ _ _ _ _ _).ask C job =
      ((C.call job st).1, asked C s job st) := rfl
  rw [follow, hfollow]
  cases hr : (C.call job st).1 with
  | now a => exact .callerSettles hc hr
  | gate name => exact .callerWaits hc hr

/-- **How a turn goes in which somebody asks**, whether it is a load or a caller, and whether the
answer comes at once or not.

**Proof sketch.** The cases are those of who asks. A load that asks lands or waits, and a caller
follows its errand, by `askTurn_follow`. -/
theorem Asks.turn (h : Asks C s t job st) : AskTurn C s job st t (s.turn C t) := by
  cases h with
  | @load l f hf hp =>
    have hask : s.ask C f.job = ((C.call f.job s.stage).1, asked C s f.job s.stage) := rfl
    simp only [Session.turn, turnLoad, hf, hp, hask]
    cases hr : (C.call f.job s.stage).1 with
    | now a => exact .loadLands rfl hr
    | gate name => exact .loadWaits hr
  | first hc hn =>
    rw [Session.turn, turnCaller_of_fresh hc, hn]
    exact askTurn_follow hc _
  | later hc hn =>
    rw [Session.turn, turnCaller_of_answered hc, hn]
    exact askTurn_follow hc _

/-! ## The list of calls -/

/-- A turn that asks notes down its job, as the last one of all. -/
lemma Asks.calls_turn (h : Asks C s t job st) : (s.turn C t).calls = s.calls ++ [job] := by
  have hturn := h.turn
  generalize s.turn C t = s' at hturn ⊢
  cases hturn <;> rfl

/-- A turn that does not ask notes down nothing, and sends nobody to a gate.

**Proof sketch.** A load that is not fresh does not call. A caller calls only if it decides to see
to a job itself, and then it asks. -/
lemma turn_of_not_asks (h : ∀ job st, ¬ Asks C s t job st) :
    (s.turn C t).calls = s.calls ∧ (s.turn C t).gates = s.gates := by
  have hfollow {stage : Stage σ κ ν τ} (c : Nat) {next : Turn ν φ δ}
      (hn : ∀ job phase, next ≠ .errand job phase) :
      (({ s with stage } : Session _ _ _ _ _ _ _).follow C c next).calls = s.calls ∧
        (({ s with stage } : Session _ _ _ _ _ _ _).follow C c next).gates = s.gates := by
    cases next with
    | done r => exact ⟨rfl, rfl⟩
    | wait l job phase => cases job <;> exact ⟨rfl, rfl⟩
    | errand job phase => exact absurd rfl (hn job phase)
  cases t with
  | deliver l c =>
    simp only [turn, deliver]
    split
    · split <;> exact ⟨rfl, rfl⟩
    · exact ⟨rfl, rfl⟩
  | load l =>
    have hturn := loadTurn (C := C) (s := s) l
    rw [turn]
    generalize s.turnLoad C l = s' at hturn ⊢
    cases hturn with
    | idle => exact ⟨rfl, rfl⟩
    | freed _ _ => exact ⟨rfl, rfl⟩
    | asked hf hp _ | answered hf hp _ => exact absurd (.load hf hp) (h _ _)
  | caller c =>
    rw [turn]
    unfold turnCaller
    split
    · next p hc => exact hfollow c fun job phase hn => h job _ (.first hc (Prod.ext hn rfl))
    · next r p hc => exact hfollow c fun job phase hn => h job _ (.later hc (Prod.ext hn rfl))
    · exact ⟨rfl, rfl⟩
    · exact ⟨rfl, rfl⟩
    · exact ⟨rfl, rfl⟩

/-- Only turns note down anything: of other moves the list of calls knows nothing. -/
lemma calls_move_of_not_turn {m : Move σ κ ν τ α φ} (h : ∀ t, m ≠ .turn t) :
    (s.move C m).calls = s.calls :=
  (calls_move (fun _ => h _) fun _ => h _).1

/-- **Each job on the list was asked for** in a turn of its own: when it was noted down, the list
had just those jobs that stand before it.

**Proof sketch.** Induction on the run, from its end. If the last move does not ask, the list is
that of the run before. If it does, its job is the last one on the list, and is the one in question
or comes after it. -/
theorem exists_asks_of_calls {ms : List (Move σ κ ν τ α φ)} {earlier later : List δ}
    (hs : s.calls = []) (h : (s.after C ms).calls = earlier ++ job :: later) :
    ∃ ms₁ t ms₂ st, ms = ms₁ ++ .turn t :: ms₂ ∧ (s.after C ms₁).calls = earlier ∧
      Asks C (s.after C ms₁) t job st := by
  induction ms using List.reverseRecOn generalizing later with
  | nil => exact absurd (hs.symm.trans h) (by simp)
  | append_singleton ms m ih =>
    have hsame (hcalls : ((s.after C ms).move C m).calls = (s.after C ms).calls) :
        ∃ ms₁ t ms₂ st, ms ++ [m] = ms₁ ++ .turn t :: ms₂ ∧ (s.after C ms₁).calls = earlier ∧
          Asks C (s.after C ms₁) t job st := by
      rw [after_append, after_cons, after_nil, hcalls] at h
      obtain ⟨ms₁, t, ms₂, st, rfl, hcalls, hasks⟩ := ih h
      exact ⟨ms₁, t, ms₂ ++ [m], st, by simp, hcalls, hasks⟩
    by_cases hm : ∃ t, m = .turn t
    · obtain ⟨t, rfl⟩ := hm
      by_cases hasks : ∃ j st, Asks C (s.after C ms) t j st
      · obtain ⟨j, st, hasks⟩ := hasks
        rw [after_append, after_cons, after_nil, move, hasks.calls_turn] at h
        rcases List.eq_nil_or_concat later with rfl | ⟨later, last, rfl⟩
        · obtain ⟨hcalls, hjob⟩ := List.append_inj' h rfl
          obtain rfl := List.singleton_inj.1 hjob
          exact ⟨ms, t, [], st, rfl, hcalls, hasks⟩
        · -- the job was noted down before
          rw [List.concat_eq_append, ← List.cons_append, ← List.append_assoc] at h
          obtain ⟨ms₁, t', ms₂, st', rfl, hcalls, hasks'⟩ := ih (List.append_inj' h rfl).1
          exact ⟨ms₁, t', ms₂ ++ [.turn t], st', by simp, hcalls, hasks'⟩
      · exact hsame (turn_of_not_asks fun j st hj => hasks ⟨j, st, hj⟩).1
    · exact hsame (calls_move_of_not_turn (not_exists.1 hm))

/-! ## The rest of the world -/

section World

variable {view : σ → β}

/-- A turn that asks leaves the world as the call left it, if the client does not touch it when it
concludes its jobs.

**Proof sketch.** Whether the answer comes at once or has to be waited for, the world is changed by
the call alone: answers are played in the cache. -/
lemma Asks.view_turn (view : σ → β)
    (hconclude : ∀ job r st, view (C.conclude job r st).2.rest = view st.rest)
    (hsettle : ∀ phase r st, view (C.settle phase r st).2.rest = view st.rest)
    (h : Asks C s t job st) : view (s.turn C t).stage.rest = view (C.call job st).2.rest := by
  have hturn := h.turn
  generalize s.turn C t = s' at hturn ⊢
  cases hturn with
  | loadWaits _ | callerWaits _ _ => rfl
  | loadLands hjob _ => rw [rest_land, hconclude, rest_play, asked]
  | callerSettles _ _ =>
    exact (hsettle _ _ _).trans ((hconclude _ _ _).trans (congrArg view (rest_play _ _)))

/-- A client does not touch what is seen of the world, except by its calls. -/
structure Aloof (C : Client σ κ ν τ α φ δ) (view : σ → β) : Prop where
  start : ∀ phase st, view (C.start phase st).2.rest = view st.rest
  resume : ∀ phase r st, view (C.resume phase r st).2.rest = view st.rest
  conclude : ∀ job r st, view (C.conclude job r st).2.rest = view st.rest
  settle : ∀ phase r st, view (C.settle phase r st).2.rest = view st.rest

namespace Aloof

omit [DecidableEq κ] [Keylike κ] [Add τ] [LE τ] [DecidableLE τ] in
/-- What is seen of the world is the same when the call is evaluated as when the turn began. -/
lemma view_of_asks (A : Aloof C view) (h : Asks C s t job st) :
    view st.rest = view s.stage.rest := by
  cases h with
  | load _ _ => rfl
  | @first c p phase job st hc hn =>
    rw [← show (C.start p s.stage).2 = st from congrArg Prod.snd hn]
    exact A.start _ _
  | @later c r p phase job st hc hn =>
    rw [← show (C.resume p r s.stage).2 = st from congrArg Prod.snd hn]
    exact A.resume _ _ _

/-- A turn that does not ask changes nothing of it.

**Proof sketch.** The cases are those of `turn_of_not_asks`, and the others are left to the
client. -/
lemma view_turn_of_not_asks (A : Aloof C view) (h : ∀ job st, ¬ Asks C s t job st) :
    view (s.turn C t).stage.rest = view s.stage.rest := by
  cases t with
  | deliver l c =>
    simp only [turn, deliver]
    split
    · split <;> rfl
    · rfl
  | load l =>
    have hturn := loadTurn (C := C) (s := s) l
    rw [turn]
    generalize s.turnLoad C l = s' at hturn ⊢
    cases hturn with
    | idle => rfl
    | freed _ _ => rw [rest_land, A.conclude, rest_play]
    | asked hf hp _ | answered hf hp _ => exact absurd (.load hf hp) (h _ _)
  | caller c =>
    rw [turn]
    unfold turnCaller
    split
    · next p hc =>
      have hstage := stage_follow (C := C) (s := { s with stage := (C.start p s.stage).2 }) c
        fun job phase (hn : (C.start p s.stage).1 = .errand job phase) =>
          h job _ (.first hc (Prod.ext hn rfl))
      exact (congrArg (fun st => view st.rest) hstage).trans (A.start _ _)
    · next r p hc =>
      have hstage := stage_follow (C := C) (s := { s with stage := (C.resume p r s.stage).2 }) c
        fun job phase (hn : (C.resume p r s.stage).1 = .errand job phase) =>
          h job _ (.later hc (Prod.ext hn rfl))
      exact (congrArg (fun st => view st.rest) hstage).trans (A.resume _ _ _)
    · next a job phase hc =>
      exact (A.settle _ _ _).trans ((A.conclude _ _ _).trans (congrArg view (rest_play a _)))
    · rfl
    · rfl

end Aloof

/-- What happens to a session from outside does not touch the world, unless it is the world that is
changed.

**Proof sketch.** Turns are excluded. To release a gate only frees tasks, and an edit is one of the
cache; what changes the world from outside leaves alone what is seen of it, by assumption. -/
lemma view_move_of_not_turn {m : Move σ κ ν τ α φ} (ht : ∀ t, m ≠ .turn t)
    (hf : ∀ f, m = .stir f → ∀ w, view (f w) = view w) :
    view (s.move C m).stage.rest = view s.stage.rest := by
  cases m with
  | turn t => exact absurd rfl (ht t)
  | stir f => exact hf f rfl _
  | edit e => exact congrArg view (Stage.rest_apply _ e)
  | release gate a =>
    refine release_of_free (P := fun s' => view s'.stage.rest = view s.stage.rest) rfl
      (fun _ _ h => h) (fun s' t h => ?_) gate
    rw [← h]
    cases t with
    | caller c | load l =>
      simp only [free]
      split <;> rfl
    | deliver l c => rfl
  | cancel c =>
    simp only [move, cancel]
    split <;> rfl
  | spawn _ | elapse _ | schedule _ => rfl

end World

/-! ## Records -/

/-- **The world has recorded the list of calls**, in every run of a client that does not touch the
record except by its calls, and whose calls write down their jobs in it. Thus the list is the one of
all evaluations of the call, each of them once, and in their order.

**Proof sketch.** One move adds to the list and to the record at most one job, and it is the same
one, as a turn does either both or neither. -/
theorem Aloof.record_after {record : σ → List ω} (note : δ → ω) (A : Aloof C record)
    (hcall : ∀ job st, record (C.call job st).2.rest = record st.rest ++ [note job])
    {ms : List (Move σ κ ν τ α φ)}
    (hms : ∀ f, .stir f ∈ ms → ∀ w, record (f w) = record w) :
    ∃ jobs, (s.after C ms).calls = s.calls ++ jobs ∧
      record (s.after C ms).stage.rest = record s.stage.rest ++ jobs.map note := by
  induction ms using List.reverseRecOn with
  | nil => exact ⟨[], by simp, by simp⟩
  | append_singleton ms m ih =>
    obtain ⟨jobs, hcalls, hrecord⟩ := ih fun f hf => hms f (List.mem_append_left _ hf)
    rw [after_append, after_cons, after_nil]
    have hsame (hc : ((s.after C ms).move C m).calls = (s.after C ms).calls)
        (hr : record ((s.after C ms).move C m).stage.rest = record (s.after C ms).stage.rest) :
        ∃ jobs, ((s.after C ms).move C m).calls = s.calls ++ jobs ∧
          record ((s.after C ms).move C m).stage.rest = record s.stage.rest ++ jobs.map note :=
      ⟨jobs, hc.trans hcalls, hr.trans hrecord⟩
    by_cases hm : ∃ t, m = .turn t
    · obtain ⟨t, rfl⟩ := hm
      by_cases hasks : ∃ job st, Asks C (s.after C ms) t job st
      · obtain ⟨job, st, hasks⟩ := hasks
        refine ⟨jobs ++ [job], ?_, ?_⟩
        · rw [move, hasks.calls_turn, hcalls, List.append_assoc]
        · rw [move, hasks.view_turn record A.conclude A.settle, hcall, A.view_of_asks hasks, hrecord,
            List.map_append, List.append_assoc]
          rfl
      · have hnot (job : δ) (st : Stage σ κ ν τ) : ¬ Asks C (s.after C ms) t job st :=
          fun h => hasks ⟨job, st, h⟩
        exact hsame (turn_of_not_asks hnot).1 (A.view_turn_of_not_asks hnot)
    · refine hsame (calls_move_of_not_turn (not_exists.1 hm))
        (view_move_of_not_turn (not_exists.1 hm) fun f hf => ?_)
      exact hms f (by simp [hf])

end NodeKeeper.Session
