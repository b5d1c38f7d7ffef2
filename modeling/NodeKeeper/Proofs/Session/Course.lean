import NodeKeeper.Proofs.Session.Conduct

/-!
# The course of a session

Whatever happens to a session, its cache goes through a course, and the history of the course is the
history of the run. What is known of all courses is therefore known of all runs, whatever the
callers of the session are like and in whatever order they take their turns.

## Main results

* `Session.course_move` — every move is a course of the cache.
* `Session.course_after` — so is every run.
* `Session.sound_after` — after every run, the cache is as the history of the run tells.

## Implementation notes

Most moves leave the ledger of a session alone: they concern callers, gates and turns. What remains
are edits, first turns, loads that land, and callers that settle their own jobs.
-/

namespace NodeKeeper.Session

open Cache (Account Course History Ledger Sound Step)

variable {σ κ ν τ α φ δ : Type}

/-! ## What leaves the stage alone -/

section Stage

variable (s : Session σ κ ν τ α φ δ)

/-- To cancel a caller leaves the stage alone. -/
@[simp] lemma stage_cancel (c : Nat) : (s.cancel c).2.stage = s.stage := by
  unfold cancel
  split <;> rfl

/-- To release a gate leaves the stage alone: what the answer brings about is played in the turn
that receives it. -/
@[simp] lemma stage_release (gate : String) (a : Answer κ ν τ α) :
    (s.release gate a).2.stage = s.stage := by
  have hfree (s : Session σ κ ν τ α φ δ) (t : Task) : (free a s t).stage = s.stage := by
    cases t with
    | caller c | load l =>
      simp only [free]
      split <;> rfl
    | deliver l c => rfl
  exact release_of_free (P := fun s' => s'.stage = s.stage) rfl (fun _ _ h => h)
    (fun s' t h => (hfree s' t).trans h) gate

/-- A delivery leaves the stage alone. -/
@[simp] lemma stage_deliver (l c : Nat) : (s.deliver l c).stage = s.stage := by
  unfold deliver
  split
  · split <;> rfl
  · rfl

end Stage

/-! ## What leaves the ledger alone -/

section Ledger

variable (key : δ → κ)

/-- A task that is lined up does not show in the ledger. -/
@[simp] lemma ledger_enqueue (s : Session σ κ ν τ α φ δ) (t : Task) :
    (s.enqueue t).ledger key = s.ledger key := rfl

/-- Tasks that are lined up do not show in the ledger. -/
@[simp] lemma ledger_enqueueAll (s : Session σ κ ν τ α φ δ) (ts : List Task) :
    (s.enqueueAll ts).ledger key = s.ledger key := rfl

/-- What becomes of a caller does not show in the ledger. -/
@[simp] lemma ledger_setCaller (s : Session σ κ ν τ α φ δ) (c : Nat) (x : Caller κ ν τ α φ δ) :
    (s.setCaller c x).ledger key = s.ledger key := rfl

/-- A task that waits for an answer does not show in the ledger. -/
@[simp] lemma ledger_await (s : Session σ κ ν τ α φ δ) (name : String) (t : Task) :
    (s.await name t).ledger key = s.ledger key := rfl

/-- A new caller does not show in the ledger. -/
@[simp] lemma ledger_spawn (s : Session σ κ ν τ α φ δ) (phase : φ) :
    (s.spawn phase).2.ledger key = s.ledger key := rfl

/-- A caller that is cancelled does not show in the ledger. -/
@[simp] lemma ledger_cancel (s : Session σ κ ν τ α φ δ) (c : Nat) :
    (s.cancel c).2.ledger key = s.ledger key := by
  unfold cancel
  split <;> rfl

omit key in
/-- A change of a flight that keeps what is read off it. -/
lemma map_modify_flights {β : Type} {p : Flight κ ν τ α δ → β}
    {g : Flight κ ν τ α δ → Flight κ ν τ α δ} (fs : List (Flight κ ν τ α δ)) (l : Nat)
    (h : ∀ f, fs[l]? = some f → p (g f) = p f) : (fs.modify l g).map p = fs.map p := by
  refine List.ext_getElem? fun m => ?_
  simp only [List.getElem?_map, List.getElem?_modify]
  by_cases hm : l = m
  · subst hm
    cases hf : fs[l]? with
    | none => rfl
    | some f => simp [h f hf]
  · simp [hm]

/-- Who waits for a load does not show in the ledger. -/
@[simp] lemma ledger_join (s : Session σ κ ν τ α φ δ) (l c : Nat) (phase : φ) :
    (s.join l c phase).ledger key = s.ledger key := by
  exact congrArg s.stage.ledger (map_modify_flights s.flights l fun _ _ => rfl)

/-- A new load has an account at the end of the ledger, which says that it has not landed. -/
lemma ledger_startFlight (s : Session σ κ ν τ α φ δ) (l : Nat) (job : δ) :
    (s.startFlight l job).ledger key =
      s.stage.ledger (s.flights.map (Flight.account key) ++ [⟨key job, false⟩]) := by
  simp [startFlight, ledger, enqueue, Flight.account, Progress.hasLanded]

/-- A load that has not landed gets somewhere. -/
lemma ledger_setProgress {s : Session σ κ ν τ α φ δ} {l : Nat} {f : Flight κ ν τ α δ}
    (hf : s.flights[l]? = some f) (p : Progress κ ν τ α)
    (hp : p.hasLanded = f.progress.hasLanded) :
    (s.setProgress l p).ledger key = s.ledger key := by
  refine congrArg s.stage.ledger (map_modify_flights s.flights l fun g hg => ?_)
  rw [hf, Option.some.injEq] at hg
  simp [Flight.account, hp, hg]

/-- A load that lands is struck off in its account. -/
lemma ledger_setLanded {s : Session σ κ ν τ α φ δ} {l : Nat} {f : Flight κ ν τ α δ}
    (hf : s.flights[l]? = some f) (r : Outcome ν) :
    (s.setProgress l (.landed r)).ledger key =
      s.stage.ledger ((s.flights.map (Flight.account key)).set l ⟨key f.job, true⟩) := by
  obtain ⟨hlt, rfl⟩ := List.getElem?_eq_some_iff.1 hf
  refine congrArg s.stage.ledger (List.ext_getElem? fun m => ?_)
  simp only [setProgress, List.getElem?_map, List.getElem?_modify, List.getElem?_set,
    List.length_map]
  by_cases hm : l = m
  · subst hm
    simp [hlt, Flight.account, Progress.hasLanded]
  · simp [hm]

/-- An answer that has arrived does not show in the ledger before it is received.

**Proof sketch.** The load that is freed has not landed, and does not land by it; so its account is
the same. -/
lemma ledger_free (a : Answer κ ν τ α) (s : Session σ κ ν τ α φ δ) (t : Task) :
    (free a s t).ledger key = s.ledger key := by
  cases t with
  | caller c =>
    simp only [free]
    split <;> rfl
  | load l =>
    simp only [free]
    split
    · next hp =>
      obtain ⟨f, hf, hp⟩ := Option.map_eq_some_iff.1 hp
      rw [ledger_enqueue, ledger_setProgress key hf _ (by rw [hp]; rfl)]
    · rfl
  | deliver l c => rfl

/-- Nor do several of them. -/
@[simp] lemma ledger_release (s : Session σ κ ν τ α φ δ) (gate : String) (a : Answer κ ν τ α) :
    (s.release gate a).2.ledger key = s.ledger key := by
  exact release_of_free (P := fun s' => s'.ledger key = s.ledger key) rfl (fun _ _ h => h)
    (fun s' t h => (ledger_free key a s' t).trans h) gate

/-- A delivery does not show in the ledger. -/
@[simp] lemma ledger_deliver (s : Session σ κ ν τ α φ δ) (l c : Nat) :
    (s.deliver l c).ledger key = s.ledger key := by
  unfold deliver
  split
  · split <;> simp
  · rfl

end Ledger

variable [Add τ] [LE τ] [DecidableLE τ] [DecidableEq κ] [Keylike κ]

/-! ## What does not -/

/-- An answer is played.

**Proof sketch.** First the time passes that the answer took, and then its edits are made, one after
the other. -/
lemma course_play (a : Answer κ ν τ α) (st : Stage σ κ ν τ) (flights : List (Account κ))
    (hle : st.now = (play a st).now ∨ st.now ≤ (play a st).now) :
    Course (st.ledger flights) (answerHistory a st) ((play a st).ledger flights) := by
  have hedits : ∀ later : Stage σ κ ν τ, later.cache = st.cache →
      play a st = a.edits.foldl Stage.apply later →
      Course (st.ledger flights) (answerHistory a st) ((play a st).ledger flights) := by
    intro later hcache hplay
    rw [answerHistory, hplay, Stage.now_foldl_apply]
    rw [hplay, Stage.now_foldl_apply] at hle
    have helapse : Course (st.ledger flights) [] (later.ledger flights) := by
      rw [Stage.ledger, Stage.ledger, hcache]
      exact Course.single (Step.elapse hle)
    simpa using helapse.trans (later.course_foldl_apply a.edits flights)
  cases ht : a.took with
  | none => exact hedits st rfl (by simp [play, ht])
  | some s => exact hedits (st.advance s) rfl (by simp [play, ht])

/-- An answer that is played leaves the rest of the world alone. -/
@[simp] lemma rest_play (a : Answer κ ν τ α) (st : Stage σ κ ν τ) :
    (play a st).rest = st.rest := by
  unfold play
  rw [Stage.rest_foldl_apply]
  cases a.took <;> rfl

/-- What an answer does to the cache does not depend on the rest of the world. -/
lemma play_with_rest (a : Answer κ ν τ α) (st : Stage σ κ ν τ) (rest : σ) :
    play a { st with rest } = { play a st with rest } := by
  unfold play
  cases a.took with
  | none => exact Stage.foldl_apply_with_rest a.edits st rest
  | some d => exact Stage.foldl_apply_with_rest a.edits (st.advance d) rest

section Turns

variable {C : Client σ κ ν τ α φ δ} (K : Conduct C)

/-- A load that lands leaves the rest of the world to what its job makes of the answer. -/
lemma rest_land (s : Session σ κ ν τ α φ δ) (l : Nat) (f : Flight κ ν τ α δ)
    (a : Answer κ ν τ α) :
    (s.land C l f a).stage.rest = (C.conclude f.job a.outcome (play a s.stage)).2.rest := by
  simp only [land, setProgress, enqueueAll]
  split
  · exact Stage.rest_finish _ _ _
  · rfl

omit [Keylike κ] in
/-- To call for a job changes neither the cache nor the loads. -/
lemma ledger_ask (s : Session σ κ ν τ α φ δ) (job : δ) :
    (s.ask C job).2.ledger K.key = s.ledger K.key :=
  K.call_ledger job s.stage _

/-- A load that lands: its answer is played, and its end is told to the cache.

**Proof sketch.** The answer is played, the client concludes the job, which does not change the
ledger, and then the load is taken off the books of the cache. To tell the waiters does not show in
the ledger. -/
lemma ledger_land {s : Session σ κ ν τ α φ δ} {l : Nat} {f : Flight κ ν τ α δ}
    (hf : s.flights[l]? = some f) (a : Answer κ ν τ α) :
    (s.land C l f a).ledger K.key =
      { now := (play a s.stage).now
        cache := (play a s.stage).cache.close (play a s.stage).now l
          (C.conclude f.job a.outcome (play a s.stage)).1.toOption
        flights := (s.flights.map (Flight.account K.key)).set l ⟨K.key f.job, true⟩ } := by
  have hledger := K.conclude_ledger f.job a.outcome (play a s.stage)
    ((s.flights.map (Flight.account K.key)).set l ⟨K.key f.job, true⟩)
  unfold land
  rcases hc : C.conclude f.job a.outcome (play a s.stage) with ⟨r, stage⟩
  rw [hc] at hledger
  simp only [Stage.ledger, Ledger.mk.injEq, and_true] at hledger
  obtain ⟨hnow, hcache⟩ := hledger
  dsimp only
  rw [ledger_enqueueAll, ledger_setLanded K.key (by exact hf) r]
  dsimp only
  rw [← hnow, ← hcache, Cache.close]
  cases stage.cache.loads.find? (fun m => m.id == l) with
  | none => rfl
  | some load => exact stage.ledger_finish load r _

/-- A load that lands runs the ledger through the history of its landing: what was played with its
answer, and then the landing itself, by which the load is finished in the cache and struck off.

**Proof sketch.** By `ledger_land` the two parts follow each other. The first one is a course by
`course_play`, since the time passes while the answer is played; the second one is a step of a load
that has not landed. -/
lemma course_land {s : Session σ κ ν τ α φ δ} {l : Nat} {f : Flight κ ν τ α δ}
    (hf : s.flights[l]? = some f) (hp : f.progress.hasLanded = false) (a : Answer κ ν τ α)
    (hle : s.stage.now = (s.land C l f a).stage.now ∨
      s.stage.now ≤ (s.land C l f a).stage.now) :
    Course (s.ledger K.key) (landHistory K s l f.job a) ((s.land C l f a).ledger K.key) := by
  have hland := ledger_land K hf a
  rw [show (s.land C l f a).stage.now = (play a s.stage).now from congrArg Ledger.now hland] at hle
  rw [hland]
  refine Course.step (course_play a s.stage _ hle) (Step.land ?_ _)
  simp [Stage.ledger, hf, Flight.account, hp]

include K in
/-- When a caller settles its job, the time is that of the answer. -/
lemma now_settle (s : Session σ κ ν τ α φ δ) (c : Nat) (job : δ) (phase : φ)
    (a : Answer κ ν τ α) : (s.settle C c job phase a).stage.now = (play a s.stage).now := by
  have hnow := congrArg Ledger.now (K.conclude_ledger job a.outcome (play a s.stage) [])
  exact (K.settle_now _ _ _).trans hnow

/-- A caller that settles a job of its own runs the ledger through the history of that. -/
lemma course_settle (s : Session σ κ ν τ α φ δ) (c : Nat) (job : δ) (phase : φ)
    (a : Answer κ ν τ α)
    (hle : s.stage.now = (s.settle C c job phase a).stage.now ∨
      s.stage.now ≤ (s.settle C c job phase a).stage.now) :
    Course (s.ledger K.key) (settleHistory K s job phase a)
      ((s.settle C c job phase a).ledger K.key) := by
  rw [now_settle K] at hle
  refine (course_play a s.stage _ hle).trans ?_
  rw [← K.conclude_ledger job a.outcome]
  exact K.settle_course _ _ _ _

/-- What a caller decided takes place: it starts a load, or does a job itself.

**Proof sketch.** To finish or to join a load does not show in the ledger. A load that is started
was entered when the request was started; and a job of the caller's own is settled at once, or is
waited for. -/
lemma course_follow (s : Session σ κ ν τ α φ δ) (c : Nat) (next : Turn ν φ δ)
    (hle : s.stage.now = (s.follow C c next).stage.now ∨
      s.stage.now ≤ (s.follow C c next).stage.now) :
    Course (s.stage.ledger (s.flights.map (Flight.account K.key) ++ next.accounts K.key))
      (followHistory K s next) ((s.follow C c next).ledger K.key) := by
  cases next with
  | done r =>
    rw [Turn.accounts, List.append_nil]
    exact Course.refl
  | wait l job phase =>
    cases job with
    | none =>
      rw [Turn.accounts, List.append_nil, follow, ledger_join]
      exact Course.refl
    | some job =>
      rw [Turn.accounts, follow, ledger_join, ledger_startFlight]
      exact Course.refl
  | errand job phase =>
    have hask := ledger_ask K s job
    have hnow := congrArg Ledger.now hask
    rw [Turn.accounts, List.append_nil]
    change Course (s.ledger K.key) _ _
    simp only [follow, followHistory] at hle ⊢
    rcases ha : s.ask C job with ⟨a | gate, s'⟩
    · simp only [ha] at hask hnow hle ⊢
      rw [← hask]
      refine course_settle K s' c job phase a ?_
      rwa [show s'.stage.now = s.stage.now from hnow]
    · simp only [ha] at hask ⊢
      rw [ledger_setCaller, ledger_await, hask]
      exact Course.refl

/-- The turn of a caller that has just started or gone on. -/
lemma course_start (s : Session σ κ ν τ α φ δ) (c : Nat) (next : Turn ν φ δ)
    (stage : Stage σ κ ν τ) {h : History κ ν τ} (hnow : stage.now = s.stage.now)
    (hc : Course (s.ledger K.key) h
      (stage.ledger (s.flights.map (Flight.account K.key) ++ next.accounts K.key)))
    (hle : s.stage.now = (({ s with stage } : Session _ _ _ _ _ _ _).follow C c next).stage.now ∨
      s.stage.now ≤ (({ s with stage } : Session _ _ _ _ _ _ _).follow C c next).stage.now) :
    Course (s.ledger K.key) (followHistory K { s with stage } next ++ h)
      ((({ s with stage } : Session _ _ _ _ _ _ _).follow C c next).ledger K.key) := by
  rw [← hnow] at hle
  exact hc.trans (course_follow K { s with stage } c next hle)

/-- The turn of a caller runs the ledger through its history.

**Proof sketch.** The cases are those of the turn. What the request says is a course by the conduct
of the client; to join a load or to finish does not show in the ledger, and a load that is started
is entered in it. -/
lemma course_turnCaller (s : Session σ κ ν τ α φ δ) (c : Nat)
    (hle : s.stage.now = (s.turnCaller C c).stage.now ∨
      s.stage.now ≤ (s.turnCaller C c).stage.now) :
    Course (s.ledger K.key) (callerHistory K s c) ((s.turnCaller C c).ledger K.key) := by
  unfold turnCaller at hle ⊢
  unfold callerHistory
  cases hc : s.callers[c]? with
  | none => exact Course.refl
  | some x =>
    simp only [hc] at hle
    cases x with
    | fresh phase =>
      exact course_start K s c _ _ (K.start_now phase s.stage) (K.start_course phase s.stage _) hle
    | answered r phase =>
      exact course_start K s c _ _ (K.resume_now phase r s.stage)
        (K.resume_course phase r s.stage _) hle
    | freed a job phase => exact course_settle K s c job phase a hle
    | cancelled | waiting _ _ | held _ _ | finished _ => exact Course.refl

/-- The turn of a load runs the ledger through its history: it lands, or it has only called for its
job, which does not show in the ledger.

**Proof sketch.** The turn is that of a load that calls for its job and is answered at once, of one
that has to wait, of one whose answer was waiting, or of one that does nothing. The first and the
third land. -/
lemma course_turnLoad (s : Session σ κ ν τ α φ δ) (l : Nat)
    (hle : s.stage.now = (s.turnLoad C l).stage.now ∨
      s.stage.now ≤ (s.turnLoad C l).stage.now) :
    Course (s.ledger K.key) (loadHistory K s l) ((s.turnLoad C l).ledger K.key) := by
  unfold turnLoad at hle ⊢
  unfold loadHistory
  cases hf : s.flights[l]? with
  | none => exact Course.refl
  | some f =>
    simp only [hf] at hle ⊢
    have hask := ledger_ask K s f.job
    have hnow := congrArg Ledger.now hask
    cases hp : f.progress with
    | fresh =>
      simp only [hp] at hle ⊢
      rcases ha : s.ask C f.job with ⟨a | gate, s'⟩
      · simp only [ha] at hask hnow hle ⊢
        rw [← hask]
        have hf' : s'.flights[l]? = some f := by
          rw [← hf, show s' = (s.ask C f.job).2 by rw [ha]]
          rfl
        refine course_land K hf' (by rw [hp]; rfl) a ?_
        rwa [show s'.stage.now = s.stage.now from hnow]
      · simp only [ha] at hask ⊢
        have hf' : s'.flights[l]? = some f := by
          rw [← hf, show s' = (s.ask C f.job).2 by rw [ha]]
          rfl
        rw [ledger_setProgress K.key (by exact hf') _ (by rw [hp]; rfl), ledger_await, hask]
        exact Course.refl
    | freed a =>
      simp only [hp] at hle ⊢
      exact course_land K hf (by rw [hp]; rfl) a hle
    | held | landed _ => exact Course.refl

/-- **Every move** is a course of the cache, as long as the clock is not turned back.

**Proof sketch.** Edits are courses of their own, the clock goes forward by assumption, and the
turns of callers and loads have their own lemmas. The other moves do not show in the ledger. -/
theorem course_move (s : Session σ κ ν τ α φ δ) (m : Move σ κ ν τ α φ)
    (hle : s.stage.now = (s.move C m).stage.now ∨ s.stage.now ≤ (s.move C m).stage.now) :
    Course (s.ledger K.key) (events K s m) ((s.move C m).ledger K.key) := by
  cases m with
  | spawn phase => exact Course.refl
  | cancel c =>
    rw [move, ledger_cancel]
    exact Course.refl
  | release gate a =>
    rw [move, ledger_release]
    exact Course.refl
  | edit e => exact s.stage.course_apply e _
  | elapse later => exact Course.single (Step.elapse hle)
  | stir f => exact Course.refl
  | schedule queue => exact Course.refl
  | turn t =>
    cases t with
    | caller c => exact course_turnCaller K s c hle
    | load l => exact course_turnLoad K s l hle
    | deliver l c =>
      rw [move, turn, ledger_deliver]
      exact Course.refl

/-- **Every run** is a course of the cache, as long as the clock is not turned back. -/
theorem course_after (s : Session σ κ ν τ α φ δ) (ms : List (Move σ κ ν τ α φ))
    (hf : Forward C s ms) :
    Course (s.ledger K.key) (history K s ms) ((s.after C ms).ledger K.key) := by
  induction ms generalizing s with
  | nil => exact Course.refl
  | cons m ms ih => exact (course_move K s m hf.1).trans (ih (s.move C m) hf.2)

/-- After every run of a session in which nothing had happened, the cache is as the history of the
run tells. -/
theorem sound_after [IsTrans τ (· ≤ ·)] (now : τ) (ttl : Option τ) (name : String) (rest : σ)
    (ms : List (Move σ κ ν τ α φ)) (hf : Forward C (opened now ttl name rest) ms) :
    Sound (((opened now ttl name rest).after C ms).ledger K.key)
      (history K (opened now ttl name rest) ms) := by
  have hsound := (Sound.new now ttl name).course (course_after K (opened now ttl name rest) ms hf)
  rwa [List.append_nil] at hsound

end Turns

end NodeKeeper.Session
