import NodeKeeper.Proofs.Cache.Protocol
import NodeKeeper.Proofs.Session.Run

/-!
# What a session does to its cache

The callers of a session reach its cache through the turns that their client takes. A *conduct* says
what these turns add to the history of the cache, and with it every run of the session has a
history.

## Main definitions

* `Edit.history`, `Answer.history` — what edits and answers add to the history of a cache.
* `Session.Conduct` — what the turns of a client add to it.
* `Session.history` — the history of a run.
* `Session.ledger` — a session as its cache sees it.

## Main results

* `Stage.course_foldl_apply` — edits are a course of the cache.
* `Session.history_append` — the history of one run after the other.

## Implementation notes

The turns of a session are put together of smaller ones: a load that lands plays its answer first,
and a caller that settles its own job does so too. The history is put together in the same way, and
each part is a course on its own.
-/

namespace NodeKeeper

open Cache (Account Course Event History Ledger Step)

/-! ## Edits -/

section Edits

variable {σ κ ν τ : Type}

/-- What an edit adds to the history of a cache. -/
def Edit.events (now : τ) : Edit κ ν → History κ ν τ
  | put k v => [.put k v now]
  | invalidate k => [.dropped k]
  | invalidateAll => [.droppedAll]
  | lookup _ | keys => []

/-- What edits add to the history of a cache, one after the other. -/
def Edit.history (now : τ) : List (Edit κ ν) → History κ ν τ
  | [] => []
  | e :: es => Edit.history now es ++ e.events now

/-- What is in the history of edits was done by one of them. -/
lemma Edit.exists_of_mem_history {now : τ} {es : List (Edit κ ν)} {x : Event κ ν τ}
    (h : x ∈ Edit.history now es) : ∃ e ∈ es, x ∈ e.events now := by
  induction es with
  | nil => exact absurd h List.not_mem_nil
  | cons e es ih =>
    rcases List.mem_append.1 h with hlater | hfirst
    · obtain ⟨e', he', hx⟩ := ih hlater
      exact ⟨e', List.mem_cons_of_mem _ he', hx⟩
    · exact ⟨e, List.mem_cons_self, hfirst⟩

/-- Edits start no load. -/
lemma Edit.started_not_mem_history (now : τ) (es : List (Edit κ ν)) (l : Nat) (k : κ) :
    .started l k ∉ Edit.history now es := by
  intro h
  obtain ⟨e, -, hx⟩ := exists_of_mem_history h
  cases e <;> simp [events] at hx

/-- What edits put was among them. -/
lemma Edit.mem_of_put_mem_history {now t : τ} {es : List (Edit κ ν)} {k : κ} {v : ν}
    (h : .put k v t ∈ Edit.history now es) : .put k v ∈ es := by
  obtain ⟨e, he, hx⟩ := exists_of_mem_history h
  cases e with
  | put j w =>
    obtain ⟨rfl, rfl, -⟩ := Event.put.inj (List.mem_singleton.1 hx)
    exact he
  | invalidate j => exact absurd hx (by simp [events])
  | invalidateAll => exact absurd hx (by simp [events])
  | lookup _ | keys => exact absurd hx List.not_mem_nil

namespace Stage

/-- A cache in use, and the accounts of its loads. -/
def ledger (st : Stage σ κ ν τ) (flights : List (Account κ)) : Ledger κ ν τ :=
  ⟨st.now, st.cache, flights⟩

/-- A record in the log does not show in the ledger. -/
@[simp] lemma ledger_recordIf (st : Stage σ κ ν τ) (b : Bool) (e : Log.Event)
    (flights : List (Account κ)) : (st.recordIf b e).ledger flights = st.ledger flights := by
  cases b <;> rfl

/-- A record in the log leaves the rest of the world alone. -/
@[simp] lemma rest_recordIf (st : Stage σ κ ν τ) (b : Bool) (e : Log.Event) :
    (st.recordIf b e).rest = st.rest := by
  cases b <;> rfl

variable [DecidableEq κ] [Keylike κ]

/-- In the ledger, to finish a load is to finish it in the cache. -/
lemma ledger_finish (st : Stage σ κ ν τ) (load : Cache.Load κ) (r : Outcome ν)
    (flights : List (Account κ)) :
    (st.finish load r).ledger flights =
      ⟨st.now, (st.cache.finish st.now load r.toOption).2, flights⟩ := by
  cases r with
  | ok v => exact ledger_recordIf _ _ _ _
  | error f => rfl

/-- To finish a load leaves the rest of the world alone. -/
@[simp] lemma rest_finish (st : Stage σ κ ν τ) (load : Cache.Load κ) (r : Outcome ν) :
    (st.finish load r).rest = st.rest := by
  cases r with
  | ok v => exact rest_recordIf _ _ _
  | error f => rfl

/-- To drop a key from the stage drops it from the cache. -/
lemma cache_invalidate (st : Stage σ κ ν τ) (k : κ) :
    (st.invalidate k).cache = (st.cache.invalidate k).2 :=
  congrArg Ledger.cache (ledger_recordIf _ _ _ [])

variable [Add τ] [LE τ] [DecidableLE τ]

/-- An edit of the cache leaves the rest of the world alone. -/
@[simp] lemma rest_apply (st : Stage σ κ ν τ) (e : Edit κ ν) : (st.apply e).rest = st.rest := by
  cases e with
  | invalidate k => exact rest_recordIf _ _ _
  | _ => rfl

/-- So do several edits. -/
@[simp] lemma rest_foldl_apply (es : List (Edit κ ν)) (st : Stage σ κ ν τ) :
    (es.foldl apply st).rest = st.rest := by
  induction es generalizing st with
  | nil => rfl
  | cons e es ih => rw [List.foldl_cons, ih, rest_apply]

/-- What is done to the cache does not depend on the rest of the world. -/
lemma apply_with_rest (st : Stage σ κ ν τ) (e : Edit κ ν) (rest : σ) :
    ({ st with rest } : Stage σ κ ν τ).apply e = { st.apply e with rest } := by
  cases e with
  | invalidate k =>
    rcases hi : st.cache.invalidate k with ⟨_ | _, cache⟩ <;>
      simp [apply, invalidate, hi, recordIf, record]
  | _ => rfl

/-- Edits of the cache do not depend on the rest of the world: they can be made before it is
changed, or after. -/
lemma foldl_apply_with_rest (es : List (Edit κ ν)) (st : Stage σ κ ν τ) (rest : σ) :
    es.foldl apply { st with rest } = { es.foldl apply st with rest } := by
  induction es generalizing st with
  | nil => rfl
  | cons e es ih => rw [List.foldl_cons, List.foldl_cons, apply_with_rest, ih]

/-- An edit takes no time. -/
@[simp] lemma now_apply (st : Stage σ κ ν τ) (e : Edit κ ν) : (st.apply e).now = st.now := by
  cases e with
  | invalidate k => exact congrArg Ledger.now (ledger_recordIf _ _ _ [])
  | _ => rfl

/-- Several edits take no time either. -/
@[simp] lemma now_foldl_apply (es : List (Edit κ ν)) (st : Stage σ κ ν τ) :
    (es.foldl apply st).now = st.now := by
  induction es generalizing st with
  | nil => rfl
  | cons e es ih => rw [List.foldl_cons, ih, now_apply]

/-- To apply an edit runs the ledger through the events of the edit. -/
lemma course_apply (st : Stage σ κ ν τ) (e : Edit κ ν) (flights : List (Account κ)) :
    Course (st.ledger flights) (e.events st.now) ((st.apply e).ledger flights) := by
  refine Course.single ?_
  cases e with
  | put k v => exact Step.put (st.ledger flights) k v
  | invalidate k =>
    rw [apply, invalidate, ledger_recordIf]
    exact Step.drop (st.ledger flights) k
  | invalidateAll => exact Step.dropAll (st.ledger flights)
  | lookup k => exact Step.lookup (st.ledger flights) k
  | keys => exact Step.keys (st.ledger flights)

/-- Edits are a course. -/
lemma course_foldl_apply (es : List (Edit κ ν)) (st : Stage σ κ ν τ)
    (flights : List (Account κ)) :
    Course (st.ledger flights) (Edit.history st.now es) ((es.foldl apply st).ledger flights) := by
  induction es generalizing st with
  | nil => exact Course.refl
  | cons e es ih =>
    have hes := ih (st.apply e)
    rw [now_apply] at hes
    exact (st.course_apply e flights).trans hes

end Stage

end Edits

/-! ## Conduct -/

/-- The accounts of the loads that a caller starts at the end of its turn. -/
def Turn.accounts {κ ν φ δ : Type} (key : δ → κ) : Turn ν φ δ → List (Account κ)
  | wait _ (some job) _ => [⟨key job, false⟩]
  | wait _ none _ | done _ | errand _ _ => []

/-- The load has ended. -/
def Progress.hasLanded {κ ν τ α : Type} : Progress κ ν τ α → Bool
  | landed _ => true
  | _ => false

/-- What counts about a load for the cache. -/
def Flight.account {κ ν τ α δ : Type} (key : δ → κ) (f : Flight κ ν τ α δ) : Account κ :=
  ⟨key f.job, f.progress.hasLanded⟩

namespace Session

variable {σ κ ν τ α φ δ : Type}

/-- A session as its cache sees it. -/
def ledger (key : δ → κ) (s : Session σ κ ν τ α φ δ) : Ledger κ ν τ :=
  s.stage.ledger (s.flights.map (Flight.account key))

variable [Add τ] [LE τ] [DecidableLE τ] [DecidableEq κ] [Keylike κ]

/-- How the turns of a client treat the cache: each is a course with a history of its own, and takes
no time. What is asked for outside, and what is made of the answer, leaves the cache alone. -/
structure Conduct (C : Client σ κ ν τ α φ δ) where
  /-- The key that a job is for. -/
  key : δ → κ
  /-- The history of a first turn. -/
  opening : φ → Stage σ κ ν τ → History κ ν τ
  /-- The history of a turn after a load has ended. -/
  resuming : φ → Outcome ν → Stage σ κ ν τ → History κ ν τ
  /-- The history of what a caller does about its own job. -/
  settling : φ → Outcome ν → Stage σ κ ν τ → History κ ν τ
  start_now : ∀ phase st, (C.start phase st).2.now = st.now
  start_course : ∀ phase st flights, Course (st.ledger flights) (opening phase st)
    ((C.start phase st).2.ledger (flights ++ (C.start phase st).1.accounts key))
  resume_now : ∀ phase r st, (C.resume phase r st).2.now = st.now
  resume_course : ∀ phase r st flights, Course (st.ledger flights) (resuming phase r st)
    ((C.resume phase r st).2.ledger (flights ++ (C.resume phase r st).1.accounts key))
  settle_now : ∀ phase r st, (C.settle phase r st).2.now = st.now
  settle_course : ∀ phase r st flights, Course (st.ledger flights) (settling phase r st)
    ((C.settle phase r st).2.ledger flights)
  call_ledger : ∀ job st flights, (C.call job st).2.ledger flights = st.ledger flights
  conclude_ledger : ∀ job r st flights, (C.conclude job r st).2.ledger flights = st.ledger flights

/-! ### Histories -/

section History

variable {C : Client σ κ ν τ α φ δ} (K : Conduct C)

/-- What an answer adds to the history of a cache. -/
def answerHistory (a : Answer κ ν τ α) (st : Stage σ κ ν τ) : History κ ν τ :=
  Edit.history (play a st).now a.edits

/-- The history of a load that lands. -/
def landHistory (s : Session σ κ ν τ α φ δ) (l : Nat) (job : δ) (a : Answer κ ν τ α) :
    History κ ν τ :=
  let r := (C.conclude job a.outcome (play a s.stage)).1
  .ended l (K.key job) r.toOption (play a s.stage).now :: answerHistory a s.stage

/-- The history of a caller that has the answer to its own job. -/
def settleHistory (s : Session σ κ ν τ α φ δ) (job : δ) (phase : φ) (a : Answer κ ν τ α) :
    History κ ν τ :=
  let (r, stage) := C.conclude job a.outcome (play a s.stage)
  K.settling phase r stage ++ answerHistory a s.stage

/-- The history of what a caller decided at the end of its turn. -/
def followHistory (s : Session σ κ ν τ α φ δ) : Turn ν φ δ → History κ ν τ
  | .errand job phase =>
    match s.ask C job with
    | (.now a, s) => settleHistory K s job phase a
    | (.gate _, _) => []
  | .done _ | .wait _ _ _ => []

/-- The history of the turn of a caller. -/
def callerHistory (s : Session σ κ ν τ α φ δ) (c : Nat) : History κ ν τ :=
  match s.callers[c]? with
  | some (.fresh phase) =>
    let (next, stage) := C.start phase s.stage
    followHistory K { s with stage } next ++ K.opening phase s.stage
  | some (.answered r phase) =>
    let (next, stage) := C.resume phase r s.stage
    followHistory K { s with stage } next ++ K.resuming phase r s.stage
  | some (.freed a job phase) => settleHistory K s job phase a
  | _ => []

/-- The history of the turn of a load. -/
def loadHistory (s : Session σ κ ν τ α φ δ) (l : Nat) : History κ ν τ :=
  match s.flights[l]? with
  | none => []
  | some f =>
    match f.progress with
    | .fresh =>
      match s.ask C f.job with
      | (.now a, s) => landHistory K s l f.job a
      | (.gate _, _) => []
    | .freed a => landHistory K s l f.job a
    | .held | .landed _ => []

/-- What a move adds to the history of the cache. -/
def events (s : Session σ κ ν τ α φ δ) : Move σ κ ν τ α φ → History κ ν τ
  | .edit e => e.events s.stage.now
  | .turn (.caller c) => callerHistory K s c
  | .turn (.load l) => loadHistory K s l
  | _ => []

/-- The history of a run, the latest event first. -/
def history (s : Session σ κ ν τ α φ δ) : List (Move σ κ ν τ α φ) → History κ ν τ
  | [] => []
  | m :: ms => history (s.move C m) ms ++ events K s m

/-- The history of a run is the one of its end on top of the one of its beginning. -/
lemma history_append (s : Session σ κ ν τ α φ δ) (ms ms' : List (Move σ κ ν τ α φ)) :
    history K s (ms ++ ms') = history K (s.after C ms) ms' ++ history K s ms := by
  induction ms generalizing s with
  | nil => simp [history]
  | cons m ms ih => rw [List.cons_append, history, ih, history, after_cons, List.append_assoc]

/-- What has happened in a run stays in the history. -/
lemma history_subset_append (s : Session σ κ ν τ α φ δ) (ms ms' : List (Move σ κ ν τ α φ)) :
    history K s ms ⊆ history K s (ms ++ ms') := by
  rw [history_append]
  exact List.subset_append_right _ _

/-- So does what has happened in one of its moves. -/
lemma events_subset_history (s : Session σ κ ν τ α φ δ) (ms : List (Move σ κ ν τ α φ))
    (m : Move σ κ ν τ α φ) (ms' : List (Move σ κ ν τ α φ)) :
    events K (s.after C ms) m ⊆ history K s (ms ++ m :: ms') := by
  rw [history_append]
  exact List.subset_append_of_subset_left _ (List.subset_append_right _ _)

end History

end Session

end NodeKeeper
