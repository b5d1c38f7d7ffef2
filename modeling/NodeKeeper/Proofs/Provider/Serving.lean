import NodeKeeper.Proofs.Cache.Standing
import NodeKeeper.Proofs.Provider.Creations

/-!
# Key pairs that were created on request

A key pair that was created on request is put in the cache, and this supersedes the loads that are
on their way. So it is served to all who come later, whatever these loads come to. A creation that
fails is not seen by anybody else.

## Main definitions

* `KeyPairs.GivesUp` — the key pair that is kept for a group is given up.
* `KeyPairs.LeavesAlone` — the turn of a caller leaves the cache and the loads alone.
* `KeyPairs.forestalled` — how many callers were cancelled that were about to create a key pair.

## Main results

* `KeyPairs.shows_of_completes` — a key pair that was created on request shows until it is given up.
* `KeyPairs.leavesAlone_of_not_completes` — a creation that does not complete leaves the cache and
  the loads alone.
* `KeyPairs.calls_balance_move`, `KeyPairs.calls_balance_after`, `KeyPairs.length_calls_of_quiet` —
  how many calls there are, by one move, after a run, and once nothing is left to be done.
* `KeyPairs.exists_creates_of_calls`, `KeyPairs.seen_after` — the calls are those that created key
  pairs, and there are no others.
* `KeyPairs.created_served` — all of this, in every run.

## Implementation notes

The history of the cache decides what shows (`Cache.Sound`). A creation that completes puts its key
pair as the last event of its turn, and there is no need to look at what the loads do afterwards: a
load that was on its way is forgotten, and its end is not among the events that supersede a key.
-/

namespace NodeKeeper.KeyPairs

open Cache (Event Sound alive shown standing)
open Session (Earns Forward Plays called events history opened play)

variable {σ τ : Type} [Add τ] [LE τ] [DecidableLE τ] {P : KeyPairs σ τ}

/-! ## Giving up -/

section GivingUp

/-- In a move, somebody drops a key: from outside, or while an answer is on its way. -/
def Drops (P : KeyPairs σ τ) (s : Store σ τ) (k : CacheKey) : StoreMove σ τ → Prop
  | .edit e => e = .invalidate k ∨ e = .invalidateAll
  | .turn t => ∃ a, Plays P.client s a t ∧ (.invalidate k ∈ a.edits ∨ .invalidateAll ∈ a.edits)
  | .spawn _ | .cancel _ | .release _ _ | .elapse _ | .stir _ | .schedule _ => False

/-- In a move, the key pair that is kept for a group is given up: another one is created on request,
or the key of the group is dropped. -/
def GivesUp (P : KeyPairs σ τ) (s : Store σ τ) (g : String) (m : StoreMove σ τ) : Prop :=
  (∃ pair, Completes P s g pair m) ∨ Drops P s (P.keyFor g) m

variable {s : Store σ τ} {g : String} {m : StoreMove σ τ}

/-- Who drops keys: somebody outside, or somebody while an answer is on its way.

**Proof sketch.** The cases are those of how an event arises in a session. Requests and their ends
put or start and drop nothing, so that only edits are left. -/
lemma drops_of_mem {k : CacheKey} {e : Event CacheKey Value τ}
    (he : e = .dropped k ∨ e = .droppedAll) (hm : e ∈ events P.conduct s m) : Drops P s k m := by
  have hedit {now : τ} {edit : Edit CacheKey Value} (hmem : e ∈ edit.events now) :
      edit = .invalidate k ∨ edit = .invalidateAll := by
    rcases he with rfl | rfl <;> cases edit <;> simp_all [Edit.events]
  cases Session.arises_of_mem hm with
  | edited hmem => exact hedit hmem
  | played ha hmem =>
    obtain ⟨edit, hin, hmem⟩ := Edit.exists_of_mem_history hmem
    rcases hedit hmem with rfl | rfl
    · exact ⟨_, ha, Or.inl hin⟩
    · exact ⟨_, ha, Or.inr hin⟩
  | @opened c p _ hmem =>
    cases p with
    | create group => exact absurd hmem List.not_mem_nil
    | get group =>
      have hnone := Cache.supersedes_of_mem_askHistory hmem k
      rcases he with rfl | rfl <;> exact absurd hnone (by simp [Event.supersedes])
  | resumed _ hmem => exact absurd hmem List.not_mem_nil
  | @settled c a job request st _ hmem =>
    cases request with
    | get group => exact absurd hmem List.not_mem_nil
    | create group =>
      cases hr : (P.client.conclude job a.outcome (play a st)).1 with
      | error f =>
        rw [hr] at hmem
        exact absurd hmem List.not_mem_nil
      | ok pair =>
        rw [hr] at hmem
        rcases he with rfl | rfl <;> exact absurd (List.mem_singleton.1 hmem) (by simp)
  | landed _ hmem => rcases he with rfl | rfl <;> exact absurd hmem (by simp)

/-- Nothing but this supersedes the key of a group, in a cache that is filled by those who create
and get key pairs.

**Proof sketch.** The cases are those of the event. A put is a creation on request by
`completes_of_put`, and a drop is one by `drops_of_mem`. -/
lemma givesUp_of_supersedes {e : Event CacheKey Value τ} (hm : e ∈ events P.conduct s m)
    (hsup : e.supersedes (P.keyFor g) = true) (halone : ∀ k v, ¬ PutsBeside P s k v m) :
    GivesUp P s g m := by
  cases e with
  | put k v t =>
    obtain rfl : k = P.keyFor g := by simpa [Event.supersedes] using hsup
    exact Or.inl ⟨v, (completes_of_put hm).resolve_right (halone _ _)⟩
  | dropped k =>
    obtain rfl : k = P.keyFor g := by simpa [Event.supersedes] using hsup
    exact Or.inr (drops_of_mem (Or.inl rfl) hm)
  | droppedAll => exact Or.inr (drops_of_mem (Or.inr rfl) hm)
  | asked _ _ | started _ _ | ended _ _ _ _ => exact absurd hsup (by simp [Event.supersedes])

end GivingUp

/-! ## Serving -/

section Serving

variable {s s₀ : Store σ τ} {g : String} {pair : Value}

/-- A creation that completes puts the key pair last of all. -/
lemma exists_events_of_completes (hs : ∀ (d : Nat) x, s.callers[d]? = some x → Orderly x)
    {m : StoreMove σ τ} (h : Completes P s g pair m) :
    ∃ older, events P.conduct s m =
      .put (P.keyFor g) pair (s.move P.client m).stage.now :: older := by
  obtain ⟨c, a, job, st, rfl, hearns, rfl, -, hconclude⟩ := exists_earns_of_completes hs h
  obtain ⟨older, hhistory⟩ := Session.exists_callerHistory_of_earns P.conduct hearns
  obtain ⟨-, hstage⟩ := Session.turnCaller_of_earns hearns
  refine ⟨older, ?_⟩
  change (P.client.conclude job a.outcome (play a st)).1 = .ok pair at hconclude
  rw [events, hhistory, Session.move, Session.turn, hstage, P.conduct.settle_now, hconclude]
  rfl

/-- **A key pair that was created on request** shows as long as it is not given up, and its lifetime
is not over.

**Proof sketch.** Right after the creation, its put is the last event, so the pair stands for the
key. An event that supersedes it would be a move that gives the pair up; without one it stands to
the end, and while it is alive the cache shows what stands. -/
theorem shows_of_completes [IsTrans τ (· ≤ ·)] (hs : IsNew s₀) {ms₁ ms₂ : List (StoreMove σ τ)}
    {m : StoreMove σ τ} (halone : FilledAlone P s₀ (ms₁ ++ m :: ms₂))
    (hclock : Forward P.client s₀ (ms₁ ++ m :: ms₂))
    (hm : Completes P (s₀.after P.client ms₁) g pair m)
    (hkeeps : ∀ ms₃ m' ms₄, ms₂ = ms₃ ++ m' :: ms₄ →
      ¬ GivesUp P (s₀.after P.client (ms₁ ++ m :: ms₃)) g m')
    (hlive : alive s₀.stage.cache.ttl (s₀.after P.client (ms₁ ++ m :: ms₂)).stage.now
      (s₀.after P.client (ms₁ ++ [m])).stage.now = true) :
    ((s₀.after P.client (ms₁ ++ m :: ms₂)).stage.cache.lookup
      (s₀.after P.client (ms₁ ++ m :: ms₂)).stage.now (P.keyFor g)).1 = some pair := by
  rw [List.append_cons] at hclock hlive ⊢
  obtain ⟨hearlier, hlater⟩ := Session.forward_append.1 hclock
  have hsound : Sound ((s₀.after P.client (ms₁ ++ [m])).ledger P.conduct.key)
      (history P.conduct s₀ (ms₁ ++ [m])) := by
    obtain ⟨now, ttl, name, rest, rfl⟩ := hs
    exact Session.sound_after P.conduct now ttl name rest _ hearlier
  have hcourse := Session.course_after P.conduct (s₀.after P.client (ms₁ ++ [m])) ms₂ hlater
  have hafter := Session.after_append P.client s₀ (ms₁ ++ [m]) ms₂
  have httl : (s₀.after P.client (ms₁ ++ [m] ++ ms₂)).stage.cache.ttl = s₀.stage.cache.ttl :=
    (Session.course_after P.conduct s₀ _ hclock).ttl_eq
  rw [← httl] at hlive
  -- right after the creation, its put is the last event of the history
  have hstands : standing (P.keyFor g) (history P.conduct s₀ (ms₁ ++ [m])) =
      some (pair, (s₀.after P.client (ms₁ ++ [m])).stage.now) := by
    obtain ⟨older, hevents⟩ := exists_events_of_completes (hs.orderly ms₁) hm
    rw [Session.history_append, history, history, List.nil_append, hevents, List.cons_append,
      standing, if_pos rfl, Session.after_append]
    rfl
  rw [← hafter] at hcourse
  refine ((hsound.course hcourse).tells.lookup_eq _).trans (Cache.shown_of_standing
    (hsound.standing_course hcourse hstands hlive fun e he => ?_) hlive)
  -- what supersedes the key gives it up
  obtain ⟨ms₃, m', ms₄, rfl, hmem⟩ := Session.exists_move_of_mem he
  by_contra hsup
  rw [← Session.after_append, List.append_assoc, List.singleton_append] at hmem
  refine hkeeps ms₃ m' ms₄ rfl (givesUp_of_supersedes hmem (by simpa using hsup) ?_)
  exact halone (ms₁ ++ m :: ms₃) m' ms₄ (by simp)

/-- Who gets the key pair of a group while it shows gets it in its first turn, and nothing else
happens.

**Proof sketch.** A key that shows is a hit. So the request ends with the pair, and the look at it
leaves the cache as it was. -/
lemma turnCaller_of_shows {c : Nat} (hc : s.callers[c]? = some (.fresh (.get g)))
    (hshows : (s.stage.cache.lookup s.stage.now (P.keyFor g)).1 = some pair) :
    s.turnCaller P.client c = s.setCaller c (.finished (.ok pair)) := by
  have hb : P.client.start (.get g) s.stage = (.done (.ok pair), s.stage) := by
    simp only [client, begin, Stage.request]
    rcases s.stage.cache.request_cases s.stage.now (P.keyFor g) true with
      ⟨pair', hl, hr⟩ | ⟨hl, -⟩
    · obtain rfl := Option.some.inj (hl.symm.trans hshows)
      rw [hr, Cache.lookup_snd_of_some hl]
    · exact absurd (hl.symm.trans hshows) (by simp)
  rw [Session.turnCaller_of_fresh hc, hb]
  rfl

end Serving

/-! ## Creations that fail -/

section Failing

omit [DecidableLE τ] [Add τ] [LE τ] in
/-- If the creation of a key pair fails, nothing is put in the cache, and nothing is dropped. -/
lemma conclude_snd_of_error {job : Order} {r : Outcome Value} {st : Stage σ τ} {e : Fault}
    (h : (P.conclude job r st).1 = .error e) : (P.conclude job r st).2 = st := by
  cases r with
  | error f => rfl
  | ok pair =>
    cases hn : pair.get "name" with
    | error f => simp [conclude, hn]
    | ok name => exact absurd h (by simp [conclude, hn])

/-- In the turn of a caller, the cache and the loads stay exactly as they are, but for what somebody
does to the cache while an answer is on its way. -/
structure LeavesAlone (P : KeyPairs σ τ) (s : Store σ τ) (c : Nat) : Prop where
  flights : (s.turnCaller P.client c).flights = s.flights
  cache : (s.turnCaller P.client c).stage.cache = s.stage.cache ∨
    ∃ a, Plays P.client s a (.caller c) ∧ a.edits ≠ [] ∧
      (s.turnCaller P.client c).stage.cache = (play a s.stage).cache

variable {s : Store σ τ} {c : Nat} {g : String}

/-- **A creation on request that does not complete** leaves the cache and its loads alone.

**Proof sketch.** By `earns_or_held` the turn has the answer or waits on. If the answer were a pair,
the creation would complete; if it is an error, the caller settles without touching the cache, and
only the edits that came with the answer are left. -/
theorem leavesAlone_of_not_completes (hs : ∀ (d : Nat) x, s.callers[d]? = some x → Orderly x)
    (hc : (s.callers[c]?).bind Caller.phase? = some (.create g))
    (hfails : ∀ pair, ¬ Completes P s g pair (.turn (.caller c))) : LeavesAlone P s c := by
  rcases earns_or_held hs hc with ⟨a, job, st, hearns⟩ | ⟨-, hflights, hcache⟩
  · obtain ⟨hflights, hstage⟩ := Session.turnCaller_of_earns hearns
    obtain ⟨-, rest, hst⟩ := create_of_earns hs hearns
    have hfinished : (s.turnCaller P.client c).callers[c]? = some (.finished
        (P.settle (.create g) (P.conclude job a.outcome (play a st)).1
          (P.conclude job a.outcome (play a st)).2).1) := Session.finished_of_earns hearns
    change _ = (P.settle (.create g) (P.conclude job a.outcome (play a st)).1
      (P.conclude job a.outcome (play a st)).2).2 at hstage
    rw [settle_fst] at hfinished
    cases hr : (P.conclude job a.outcome (play a st)).1 with
    | ok pair =>
      rw [hr] at hfinished
      exact absurd ⟨c, rfl, hc, hfinished⟩ (hfails pair)
    | error e =>
      have hcache : (s.turnCaller P.client c).stage.cache = (play a s.stage).cache := by
        rw [hstage, hr, conclude_snd_of_error hr, hst, Session.play_with_rest]
        rfl
      refine ⟨hflights, ?_⟩
      by_cases hedits : a.edits = []
      · refine Or.inl (hcache.trans ?_)
        unfold play
        rw [hedits]
        cases a.took <;> rfl
      · exact Or.inr ⟨a, ⟨job, _, st, hearns⟩, hedits, hcache⟩
  · exact ⟨hflights, Or.inl hcache⟩

/-- A creation on request fails if its call does. -/
lemma finished_of_error {a : Answer CacheKey Value τ Value} {job : Order} {st : Stage σ τ}
    {e : Fault} (h : Earns P.client s c a job (.create g) st) (ha : a.outcome = .error e) :
    (s.turnCaller P.client c).callers[c]? = some (.finished (.error e)) := by
  have hfinished := Session.finished_of_earns h
  rw [ha] at hfinished
  exact hfinished

end Failing

/-! ## Counting creations -/

section Counting

/-- The caller is about to create a key pair on request. -/
def isToCreate : Caller CacheKey Value τ Value Request Order → Bool
  | .fresh (.create _) => true
  | .fresh (.get _) | .waiting _ _ | .answered _ _ | .held _ _ | .freed _ _ _ | .cancelled
  | .finished _ => false

/-- Which callers are about to create a key pair on request. -/
def toCreate (s : Store σ τ) : List Bool := s.callers.map isToCreate

/-- In a move, a caller comes in that creates a key pair on request. -/
def asksForCreation : StoreMove σ τ → Bool
  | .spawn (.create _) => true
  | _ => false

/-- The number of callers that are cancelled in a move when they were about to create a key pair. -/
def forestalls (s : Store σ τ) : StoreMove σ τ → Nat
  | .cancel c => if (toCreate s)[c]? = some true then 1 else 0
  | _ => 0

/-- The number of callers that are cancelled in a run when they were about to create a key pair. -/
def forestalled (P : KeyPairs σ τ) (s : Store σ τ) : List (StoreMove σ τ) → Nat
  | [] => 0
  | m :: ms => forestalls s m + forestalled P (s.move P.client m) ms

/-- In a run in which nobody is cancelled nobody is cancelled too early. -/
lemma forestalled_eq_zero {s : Store σ τ} {ms : List (StoreMove σ τ)}
    (h : ∀ c, .cancel c ∉ ms) : forestalled P s ms = 0 := by
  induction ms generalizing s with
  | nil => rfl
  | cons m ms ih =>
    have hm : forestalls s m = 0 := by
      cases m with
      | cancel c => exact absurd List.mem_cons_self (h c)
      | _ => rfl
    rw [forestalled, hm, ih fun c hc => h c (List.mem_cons_of_mem _ hc)]

omit [Add τ] [LE τ] [DecidableLE τ] in
/-- To strike out one mark of a list lowers the number of its marks by one, if there was a mark at
that place. -/
lemma count_set_false (xs : List Bool) (c : Nat) :
    (xs.set c false).count true + (if xs[c]? = some true then 1 else 0) = xs.count true := by
  induction xs generalizing c with
  | nil => simp
  | cons x xs ih =>
    cases c with
    | zero => cases x <;> simp
    | succ c =>
      have htail := ih c
      simp only [List.set_cons_succ, List.count_cons, List.getElem?_cons_succ]
      omega

variable {s : Store σ τ}

omit [Add τ] [LE τ] [DecidableLE τ] in
/-- A caller gets somewhere from where it does not create on request. -/
lemma map_isToCreate_eq_set {xs ys : List (Caller CacheKey Value τ Value Request Order)} {c : Nat}
    (hothers : ∀ d, c ≠ d → ys[d]? = xs[d]?)
    (hself : (ys[c]?).map isToCreate = (xs[c]?).map fun _ => false) :
    ys.map isToCreate = (xs.map isToCreate).set c false := by
  refine List.ext_getElem? fun d => ?_
  rw [List.getElem?_map]
  by_cases hd : c = d
  · subst hd
    rw [hself, List.getElem?_set_self', List.getElem?_map]
    cases xs[c]? <;> rfl
  · rw [hothers d hd, List.getElem?_set_ne hd, List.getElem?_map]

omit [Add τ] [LE τ] [DecidableLE τ] in
/-- Where a turn leads, nobody is about to begin. -/
lemma isToCreate_of_leadsTo {next : Turn Value Request Order}
    {y : Caller CacheKey Value τ Value Request Order} (h : next.LeadsTo y) :
    isToCreate y = false := by
  cases next with
  | done r => rw [show y = .finished r from h]; rfl
  | wait l job request => rw [show y = .waiting l request from h]; rfl
  | errand job request => rcases h with rfl | ⟨r, rfl⟩ <;> rfl

/-- Who has had a turn is not about to create.

**Proof sketch.** The cases are those of the caller. One that is fresh leads to a state that is not,
by `callers_follow_self`, and all others are not about to create, before or after. -/
lemma toCreate_turnCaller (c : Nat) :
    toCreate (s.turnCaller P.client c) = (toCreate s).set c false := by
  refine map_isToCreate_eq_set (fun d hd => Session.callers_turnCaller_ne hd) ?_
  cases hc : s.callers[c]? with
  | none => rw [Session.turnCaller, hc]; dsimp only; rw [hc]; rfl
  | some x =>
    cases x with
    | fresh request =>
      obtain ⟨y, hy, hlead⟩ := Session.callers_follow_self (C := P.client)
        (s := { s with stage := (P.client.start request s.stage).2 }) hc
        (P.client.start request s.stage).1
      rw [Session.turnCaller_of_fresh hc, hy]
      exact congrArg some (isToCreate_of_leadsTo hlead)
    | answered r request =>
      obtain ⟨y, hy, hlead⟩ := Session.callers_follow_self (C := P.client)
        (s := { s with stage := (P.client.resume request r s.stage).2 }) hc
        (P.client.resume request r s.stage).1
      rw [Session.turnCaller_of_answered hc, hy]
      exact congrArg some (isToCreate_of_leadsTo hlead)
    | freed a job request =>
      obtain ⟨r, hr⟩ := Session.callers_settle_self (C := P.client) hc job request a
      rw [Session.turnCaller, hc]
      dsimp only
      rw [hr]
      rfl
    | cancelled =>
      rw [Session.turnCaller, hc]
      dsimp only
      rw [Session.callers_setCaller_self hc]
      rfl
    | waiting _ _ | held _ _ | finished _ =>
      rw [Session.turnCaller, hc]
      dsimp only
      rw [hc]
      rfl

omit [Add τ] [LE τ] [DecidableLE τ] in
/-- Nor is who was cancelled.

**Proof sketch.** The cases are those of the caller. To cancel one that is not about to create does
not make it so. -/
lemma toCreate_cancel (c : Nat) : toCreate (s.cancel c).2 = (toCreate s).set c false := by
  refine map_isToCreate_eq_set (fun d hd => ?_) ?_
  · unfold Session.cancel
    split <;> first | rfl | exact Session.callers_setCaller_ne hd _
  · unfold Session.cancel
    cases hc : s.callers[c]? with
    | none => dsimp only; rw [hc]; rfl
    | some x =>
      cases x with
      | cancelled | finished _ => dsimp only; rw [hc]; rfl
      | fresh _ | waiting _ _ | answered _ _ | held _ _ | freed _ _ _ =>
        have hset := Session.callers_setCaller_self hc .cancelled
        dsimp only [Session.enqueue]
        rw [hset]
        rfl

/-- Beside turns and cancellations, nobody begins or is kept from it.

**Proof sketch.** The cases are those of `callerStep_move`. Those in which a caller begins, is
resumed or settles are turns, and are excluded. -/
lemma toCreate_move {m : StoreMove σ τ} (hspawn : ∀ request, m ≠ .spawn request)
    (hcancel : ∀ c, m ≠ .cancel c) (hcaller : ∀ c, m ≠ .turn (.caller c)) :
    toCreate (s.move P.client m) = toCreate s := by
  refine List.ext_getElem? fun c => ?_
  rw [toCreate, toCreate, List.getElem?_map, List.getElem?_map]
  have hstep := Session.callerStep_move (C := P.client) (s := s) c m
  generalize (s.move P.client m).callers[c]? = y at hstep ⊢
  generalize s.callers[c]? = x at hstep ⊢
  cases hstep with
  | same | freed _ _ _ _ | delivered _ _ => rfl
  | spawned request => exact absurd rfl (hspawn request)
  | cancelled _ => exact absurd rfl (hcancel c)
  | began _ _ | resumed _ _ _ | settled _ _ _ _ | gaveUp => exact absurd rfl (hcaller c)

/-- In the turn of a caller there is one call if it is about to create, and none otherwise.

**Proof sketch.** The cases are those of the caller. Only a fresh one that creates makes an errand
of its turn, and this is one call by `calls_follow_errand`. -/
lemma length_calls_turnCaller (c : Nat) :
    (s.turnCaller P.client c).calls.length =
      s.calls.length + if (toCreate s)[c]? = some true then 1 else 0 := by
  rw [toCreate, List.getElem?_map]
  cases hc : s.callers[c]? with
  | none => simp [Session.turnCaller, hc]
  | some x =>
    cases x with
    | fresh request =>
      rw [Session.turnCaller_of_fresh hc]
      cases request with
      | create g =>
        have hcalls := Session.calls_follow_errand (C := P.client)
          (s := { s with stage := (P.order g s.stage).2 }) c (P.order g s.stage).1 (.create g)
        exact (congrArg List.length hcalls).trans (by simp [isToCreate])
      | get g =>
        rw [Session.calls_follow]
        · simp [isToCreate]
        · exact P.begin_get_ne_errand g s.stage
    | answered r request =>
      rw [Session.turnCaller_of_answered hc, Session.calls_follow]
      · simp [isToCreate]
      · simp [client]
    | freed _ _ _ | cancelled | waiting _ _ | held _ _ | finished _ =>
      simp [Session.turnCaller, hc, isToCreate, Session.settle, Session.setCaller]

/-- **One move** adds a call for every caller that begins to create, and for every load that calls.

**Proof sketch.** Whoever takes its first turn in order to create stops being about to create, and
makes a call; so does a load that takes its first turn. Whoever is cancelled before makes none. -/
lemma calls_balance_move (m : StoreMove σ τ) :
    (s.move P.client m).calls.length + (toCreate (s.move P.client m)).count true +
        forestalls s m + (called s.flights).length =
      s.calls.length + (toCreate s).count true + (asksForCreation m).toNat +
        (called (s.move P.client m).flights).length := by
  have hother (hspawn : ∀ request, m ≠ .spawn request) (hcancel : ∀ c, m ≠ .cancel c)
      (hcaller : ∀ c, m ≠ .turn (.caller c)) (hload : ∀ l, m ≠ .turn (.load l)) :
      (s.move P.client m).calls.length + (toCreate (s.move P.client m)).count true +
          (called s.flights).length =
        s.calls.length + (toCreate s).count true +
          (called (s.move P.client m).flights).length := by
    obtain ⟨hcalls, hcalled⟩ := Session.calls_move (C := P.client) (s := s) hcaller hload
    rw [hcalls, hcalled, toCreate_move hspawn hcancel hcaller]
  cases m with
  | spawn request =>
    have hspawn : toCreate (s.move P.client (.spawn request)) =
        toCreate s ++ [isToCreate (.fresh request)] := List.map_append
    obtain ⟨hcalls, hcalled⟩ := Session.calls_move (C := P.client) (s := s) (m := .spawn request)
      (by simp) (by simp)
    rw [hcalls, hcalled, hspawn, List.count_append]
    cases request with
    | create g =>
      simp only [forestalls, asksForCreation, isToCreate, List.count_singleton_self,
        Bool.toNat_true]
      omega
    | get g => simp [forestalls, asksForCreation, isToCreate]
  | cancel c =>
    obtain ⟨hcalls, hcalled⟩ := Session.calls_move (C := P.client) (s := s) (m := .cancel c)
      (by simp) (by simp)
    have hcount := count_set_false (toCreate s) c
    rw [hcalls, hcalled, Session.move, toCreate_cancel]
    simp only [forestalls, asksForCreation, Bool.toNat_false]
    omega
  | turn t =>
    cases t with
    | caller c =>
      have hcount := count_set_false (toCreate s) c
      rw [Session.move, Session.turn, toCreate_turnCaller, Session.called_turnCaller,
        length_calls_turnCaller]
      simp only [forestalls, asksForCreation, Bool.toNat_false]
      omega
    | load l =>
      have hsame : toCreate (s.move P.client (.turn (.load l))) = toCreate s :=
        toCreate_move (by simp) (by simp) (by simp)
      rw [hsame, Session.move, Session.turn]
      simp only [forestalls, asksForCreation, Bool.toNat_false]
      rcases Session.calls_turnLoad (C := P.client) (s := s) l with
        ⟨hcalls, hcalled⟩ | ⟨job, hcalls, hcalled⟩
      · rw [hcalls, hcalled]
      · rw [hcalls, hcalled.length_eq, List.length_append, List.length_append]
        simp only [List.length_singleton]
        omega
    | deliver l c => simpa [forestalls, asksForCreation] using hother
  | release _ _ | edit _ | elapse _ | stir _ | schedule _ =>
    simpa [forestalls, asksForCreation] using hother

/-- **After every run**, there is a call for every caller that has begun to create, and for every
load that has called.

**Proof sketch.** The induction is on the run, with `calls_balance_move` for the first move. -/
theorem calls_balance_after (ms : List (StoreMove σ τ)) :
    (s.after P.client ms).calls.length + (toCreate (s.after P.client ms)).count true +
        forestalled P s ms + (called s.flights).length =
      s.calls.length + (toCreate s).count true + ms.countP asksForCreation +
        (called (s.after P.client ms).flights).length := by
  induction ms generalizing s with
  | nil => simp [forestalled]
  | cons m ms ih =>
    have hmove := calls_balance_move (P := P) (s := s) m
    have hrest := ih (s := s.move P.client m)
    have hcount : (m :: ms).countP asksForCreation =
        ms.countP asksForCreation + (asksForCreation m).toNat := by
      rw [List.countP_cons]
      cases asksForCreation m <;> rfl
    rw [Session.after_cons, forestalled, hcount]
    omega

/-- Once nothing is left to be done, nobody is about to create. -/
lemma count_toCreate_eq_zero (hquiet : ∀ t, s.turn P.client t = s) :
    (toCreate s).count true = 0 := by
  refine List.count_eq_zero.2 fun hmem => ?_
  obtain ⟨c, hc⟩ := List.mem_iff_getElem?.1 hmem
  have hturn := toCreate_turnCaller (P := P) (s := s) c
  rw [show s.turnCaller P.client c = s from hquiet (.caller c)] at hturn
  have hself : ((toCreate s).set c false)[c]? = some false :=
    List.getElem?_set_self (List.getElem?_eq_some_iff.1 hc).1
  rw [← hturn] at hself
  exact absurd (hc.symm.trans hself) (by simp)

/-- Once nothing is left to be done, every load has called.

**Proof sketch.** A load that has not called is fresh, and its turn would add a call. But no turn
changes anything. -/
lemma length_called_eq (hquiet : ∀ t, s.turn P.client t = s) :
    (called s.flights).length = s.flights.length := by
  rw [called, List.length_map, List.filter_eq_self.2 fun f hf => ?_]
  obtain ⟨l, hl⟩ := List.mem_iff_getElem?.1 hf
  by_contra hcalled
  have hfresh : f.progress = .fresh := by
    cases hp : f.progress with
    | fresh => rfl
    | held | freed _ | landed _ => exact absurd (by simp [Flight.hasCalled, hp]) hcalled
  have hcalls := (Session.Asks.load (C := P.client) hl hfresh).calls_turn
  rw [hquiet (.load l)] at hcalls
  exact absurd (congrArg List.length hcalls) (by simp)

/-- **Once nothing is left to be done**, the calls are one for every caller that creates on request
and was not cancelled before it began, and one for every load. -/
theorem length_calls_of_quiet {s₀ : Store σ τ} (hs : IsNew s₀) {ms : List (StoreMove σ τ)}
    (hquiet : ∀ t, (s₀.after P.client ms).turn P.client t = s₀.after P.client ms) :
    (s₀.after P.client ms).calls.length + forestalled P s₀ ms =
      ms.countP asksForCreation + (s₀.after P.client ms).flights.length := by
  have hbalance := calls_balance_after (P := P) (s := s₀) ms
  rw [count_toCreate_eq_zero hquiet, length_called_eq hquiet, hs.calls, hs.flights, toCreate,
    hs.callers] at hbalance
  simpa [called] using hbalance

end Counting

/-! ## The calls -/

section Calls

variable {seen : σ → List String} {ms : List (StoreMove σ τ)}

/-- Every order that was noted down had a key pair created under its name, in a turn of its own. -/
lemma exists_creates_of_calls {s₀ : Store σ τ} (hs : IsNew s₀) {earlier later : List Order}
    {order : Order} (h : (s₀.after P.client ms).calls = earlier ++ order :: later) :
    ∃ ms₁ t ms₂ r, ms = ms₁ ++ .turn t :: ms₂ ∧ (s₀.after P.client ms₁).calls = earlier ∧
      Creates P (s₀.after P.client ms₁) t order r := by
  obtain ⟨ms₁, t, ms₂, st, happ, hcalls, hasks⟩ := Session.exists_asks_of_calls hs.calls h
  exact ⟨ms₁, t, ms₂, _, happ, hcalls, creates_of_asks hasks⟩

/-- Those who create and get key pairs do not touch a record of what is created, unless drawing a
suffix does.

**Proof sketch.** The suffix is drawn when a request is begun. All other parts of the client leave
the rest of the world alone. -/
lemma aloof (hsuffix : ∀ w, seen (P.suffix w).2 = seen w) : Session.Aloof P.client seen where
  start request st := by
    cases request with
    | create g => exact hsuffix st.rest
    | get g =>
      simp only [client, begin, Stage.request]
      rcases st.cache.request st.now (P.keyFor g) true with ⟨_ | _ | _ | _, _⟩
      · rfl
      · rfl
      · exact hsuffix st.rest
      · rfl
  resume _ _ _ := rfl
  conclude job r st := congrArg seen (rest_conclude job r st)
  settle request r st := congrArg seen (rest_settle request r st)

/-- A world that writes down the names that key pairs are created under has written down those of
the calls, each of them once, and in their order. -/
lemma seen_after {s₀ : Store σ τ} (hs : IsNew s₀)
    (hcreate : ∀ n w, seen (P.create n w).2 = seen w ++ [n])
    (hsuffix : ∀ w, seen (P.suffix w).2 = seen w)
    (hstir : ∀ f, .stir f ∈ ms → ∀ w, seen (f w) = seen w) :
    seen (s₀.after P.client ms).stage.rest =
      seen s₀.stage.rest ++ (s₀.after P.client ms).calls.map Order.name := by
  obtain ⟨orders, hcalls, hseen⟩ := (aloof hsuffix).record_after Order.name (s := s₀)
    (fun order st => hcreate order.name st.rest) hstir
  rw [hs.calls, List.nil_append] at hcalls
  rw [hcalls, hseen]

end Calls

/-! ## Whatever happens -/

/-- **A key pair that was created on request is served**, in every run of those who create and get
key pairs. If nobody beside them puts key pairs in their cache, then whatever a caller got for a
group, and whatever is kept under the key of the group, is what a call has come to that created a
key pair under a name of this group. Once a creation on request has completed, whoever begins to get
the key pair of its group gets it at once, without a call, until another such creation completes,
the key is dropped, or the lifetime is over; a load that was on its way does not change this when it
ends. A creation whose call fails fails, and leaves the cache and its loads exactly as they were,
but for what others do to the cache meanwhile. Every call that was noted down created a key pair
under its name, and no other one was created: a world that writes down these names has the list.
Once nothing is left to be done, there have been as many calls as creations were asked for and loads
were started, less the creations that were cancelled before they began.

**Proof sketch.** What the cache has of a group was put by a creation, or came with a load, and a
caller gets what the cache has, or what a load comes to that is one of its group. A put supersedes
the loads on the way, and none is started while it shows, so that the put stands in the history of
the cache until something supersedes it. The calls are counted move by move. -/
theorem created_served [IsTrans τ (· ≤ ·)] (P : KeyPairs σ τ) (now : τ) (ttl : Option τ)
    (name : String) (rest : σ) (ms : List (StoreMove σ τ)) :
    let s₀ : Store σ τ := opened now ttl name rest
    let s := s₀.after P.client ms
    (FilledAlone P s₀ ms →
      -- key pairs that are handed out
      (∀ (ms₁ ms₂ : List (StoreMove σ τ)) (c : Nat) (g : String) (pair : Value), ms = ms₁ ++ ms₂ →
        (s₀.after P.client ms₁).callers[c]? = some (.fresh (.get g)) →
          s.callers[c]? = some (.finished (.ok pair)) → Nonempty (Creation P s₀ ms g pair)) ∧
      -- key pairs that are kept
      (∀ g, ∀ e ∈ s.stage.cache.entries, e.key = P.keyFor g →
        Nonempty (Creation P s₀ ms g e.value)) ∧
      -- key pairs that were created on request
      (Forward P.client s₀ ms → ∀ ms₁ m ms₂ g pair, ms = ms₁ ++ m :: ms₂ →
        Completes P (s₀.after P.client ms₁) g pair m →
          (∀ ms₃ m' ms₄, ms₂ = ms₃ ++ m' :: ms₄ →
            ¬ GivesUp P (s₀.after P.client (ms₁ ++ m :: ms₃)) g m') →
          alive ttl s.stage.now (s₀.after P.client (ms₁ ++ [m])).stage.now = true →
            ∀ c : Nat, s.callers[c]? = some (.fresh (.get g)) →
              s.turnCaller P.client c = s.setCaller c (.finished (.ok pair)))) ∧
    -- creations that fail
    (∀ (c : Nat) (g : String), (s.callers[c]?).bind Caller.phase? = some (.create g) →
      (∀ a job st e, Earns P.client s c a job (.create g) st → a.outcome = .error e →
        (s.turnCaller P.client c).callers[c]? = some (.finished (.error e))) ∧
      ((∀ pair, ¬ Completes P s g pair (.turn (.caller c))) → LeavesAlone P s c)) ∧
    -- the calls
    (∀ earlier order later, s.calls = earlier ++ order :: later →
      ∃ ms₁ t ms₂ r, ms = ms₁ ++ .turn t :: ms₂ ∧ (s₀.after P.client ms₁).calls = earlier ∧
        Creates P (s₀.after P.client ms₁) t order r) ∧
    (∀ seen : σ → List String, (∀ n w, seen (P.create n w).2 = seen w ++ [n]) →
      (∀ w, seen (P.suffix w).2 = seen w) → (∀ f, .stir f ∈ ms → ∀ w, seen (f w) = seen w) →
        seen s.stage.rest = seen rest ++ s.calls.map Order.name) ∧
    -- the number of calls
    ((∀ t, s.turn P.client t = s) →
      s.calls.length + forestalled P s₀ ms = ms.countP asksForCreation + s.flights.length ∧
      ((∀ c, .cancel c ∉ ms) →
        s.calls.length = ms.countP asksForCreation + s.flights.length)) := by
  intro s₀ s
  have hs : IsNew s₀ := ⟨now, ttl, name, rest, rfl⟩
  refine ⟨fun halone => ⟨?_, fun g e he hkey => ?_, ?_⟩, fun c g hc => ⟨?_, ?_⟩,
    fun _ _ _ hcalls => exists_creates_of_calls hs hcalls,
    fun seen hcreate hsuffix hstir => seen_after hs hcreate hsuffix hstir, fun hquiet => ?_⟩
  · rintro ms₁ ms₂ c g pair rfl hfresh hfinished
    exact exists_creation_of_got hs halone hfresh hfinished
  · have hv : (s.ledger P.conduct.key).Valid := Session.valid_after P.conduct hs.valid ms
    have hkept := Cache.kept?_key hv.coherent.entry_unique he
    rw [hkey] at hkept
    exact exists_creation_of_kept hs halone hkept
  · rintro hclock ms₁ m ms₂ g pair rfl hm hkeeps hlive c hc
    exact turnCaller_of_shows hc (shows_of_completes hs halone hclock hm hkeeps hlive)
  · exact fun a job st e hearns ha => finished_of_error hearns ha
  · exact leavesAlone_of_not_completes (hs.orderly ms) hc
  · have hcount := length_calls_of_quiet hs hquiet
    refine ⟨hcount, fun hcancel => ?_⟩
    rwa [forestalled_eq_zero hcancel] at hcount

/-! ## A creation that overtakes a load -/

section Gates

variable {s₀ : Store σ τ}

/-- Somebody beside those who create and get key pairs does something to their cache: from outside,
or while an answer is on its way. -/
def touches : StoreMove σ τ → Bool
  | .edit _ => true
  | .release _ a => !a.edits.isEmpty
  | .spawn _ | .cancel _ | .turn _ | .elapse _ | .stir _ | .schedule _ => false

/-- If all answers come through gates, and nobody does anything to the cache from outside or while
an answer is on its way, then no answer that arrives has edits. -/
lemma edits_eq_nil_of_plays (hgates : ∀ n w a, (P.create n w).1 ≠ .now a) (hs : IsNew s₀)
    {ms ms' : List (StoreMove σ τ)} (h : (ms ++ ms').any touches = false)
    {a : Answer CacheKey Value τ Value} {t : Task}
    (ha : Plays P.client (s₀.after P.client ms) a t) : a.edits = [] := by
  obtain ⟨gate, hmem⟩ := Session.exists_release_of_plays
    (fun job st a => hgates job.name st.rest a) hs.gates hs.callers hs.flights ha
  have huntouched := List.any_eq_false.1 h _ (List.mem_append_left ms' hmem)
  simpa [touches] using huntouched

/-- Then the callers are the only ones to fill their cache. -/
lemma filledAlone_of_gates (hgates : ∀ n w a, (P.create n w).1 ≠ .now a) (hs : IsNew s₀)
    {ms : List (StoreMove σ τ)} (h : ms.any touches = false) : FilledAlone P s₀ ms := by
  rintro ms₁ m ms₂ rfl k v hput
  have huntouched := List.any_eq_false.1 h m (by simp)
  cases m with
  | edit e => exact huntouched rfl
  | turn t =>
    obtain ⟨a, ha, hmem⟩ := hput
    rw [edits_eq_nil_of_plays hgates hs h ha] at hmem
    exact List.not_mem_nil hmem
  | spawn _ | cancel _ | release _ _ | elapse _ | stir _ | schedule _ => exact hput

/-- Then nobody drops a key.

**Proof sketch.** Nobody edits the cache from outside, and the answers come without edits, by
`edits_eq_nil_of_plays`. -/
lemma not_drops_of_gates (hgates : ∀ n w a, (P.create n w).1 ≠ .now a) (hs : IsNew s₀)
    {ms₁ : List (StoreMove σ τ)} {m : StoreMove σ τ} (ms₂ : List (StoreMove σ τ))
    (h : (ms₁ ++ m :: ms₂).any touches = false) (k : CacheKey) :
    ¬ Drops P (s₀.after P.client ms₁) k m := by
  intro hdrops
  have huntouched := List.any_eq_false.1 h m (by simp)
  cases m with
  | edit e => exact huntouched rfl
  | turn t =>
    obtain ⟨a, ha, hmem⟩ := hdrops
    rw [edits_eq_nil_of_plays hgates hs h ha] at hmem
    rcases hmem with hmem | hmem <;> exact List.not_mem_nil hmem
  | spawn _ | cancel _ | release _ _ | elapse _ | stir _ | schedule _ => exact hdrops

end Gates

/-- Once all callers have finished and all loads have landed, nothing is left to be done.

**Proof sketch.** The cases are those of the task: a finished caller has no turn, a finished caller
is not delivered to, and a load that has landed has no turn. -/
lemma turn_eq_self {s : Store σ τ} (rs : List (Outcome Value))
    (hcallers : s.callers = rs.map .finished)
    (hflights : s.flights.all (·.progress.hasLanded) = true) (t : Task) :
    s.turn P.client t = s := by
  have hfinished (c : Nat) : s.callers[c]? = (rs[c]?).map .finished := by
    rw [hcallers, List.getElem?_map]
  cases t with
  | caller c =>
    rw [Session.turn, Session.turnCaller, hfinished]
    cases rs[c]? <;> rfl
  | deliver l c =>
    rw [Session.turn, Session.deliver, hfinished]
    cases rs[c]? <;> cases (s.flights[l]?).map Flight.progress with
    | none => rfl
    | some p => cases p <;> rfl
  | load l =>
    rw [Session.turn, Session.turnLoad]
    cases hl : s.flights[l]? with
    | none => rfl
    | some f =>
      have hlanded : f.progress.hasLanded = true :=
        List.all_eq_true.1 hflights f (List.mem_of_getElem? hl)
      cases hp : f.progress with
      | landed r => simp only [hp]
      | fresh | held | freed _ => exact absurd hlanded (by simp [hp, Progress.hasLanded])

/-- How many suffixes were drawn, and under what names key pairs were created. -/
abbrev Register : Type := Nat × List String

/-- Key pairs whose creation is answered at gates of their own. -/
def drawing : KeyPairs Register Nat where
  region := "RegionOne"
  suffix w := (if w.1 = 0 then "0a" else "1b", w.1 + 1, w.2)
  create name w := (.gate name, w.1, w.2 ++ [name])

/-- A key pair of the group `web`. -/
def webPair (suffix : String) : Value := .record [("name", .text ("nodes-web-" ++ suffix))]

/-- A load of the key pair of the group `web` is on the way when another one is created on request.
The load ends later, and somebody else comes in. -/
def overtaken : List (StoreMove Register Nat) :=
  [.spawn (.get "web"), .turn (.caller 0), .turn (.load 0), .spawn (.create "web"),
    .turn (.caller 1), .release "nodes-web-1b" ⟨none, [], .ok (webPair "1b")⟩,
    .turn (.caller 1), .release "nodes-web-0a" ⟨none, [], .ok (webPair "0a")⟩, .turn (.load 0),
    .elapse 5, .spawn (.get "web")]

/-- Nobody beside the callers fills their cache. -/
lemma overtaken_filledAlone : FilledAlone drawing (opened 0 (some 100) "keys" (0, [])) overtaken :=
  filledAlone_of_gates (by simp [drawing]) ⟨0, some 100, "keys", (0, []), rfl⟩ rfl

/-- Nobody gives up the key pair that was created on request. -/
lemma overtaken_keeps (ms₃ : List (StoreMove Register Nat)) (m' : StoreMove Register Nat)
    (ms₄ : List (StoreMove Register Nat)) (h : overtaken.drop 7 = ms₃ ++ m' :: ms₄) :
    ¬ GivesUp drawing ((opened 0 (some 100) "keys" (0, []) : Store Register Nat).after drawing.client
      (overtaken.take 6 ++ .turn (.caller 1) :: ms₃)) "web" m' := by
  have hmem : m' ∈ overtaken.drop 7 := by simp [h]
  rintro (⟨pair, c, rfl, -⟩ | hdrops)
  · simp [overtaken] at hmem
  · refine not_drops_of_gates (by simp [drawing]) ⟨0, some 100, "keys", (0, []), rfl⟩ ms₄ ?_ _ hdrops
    rw [List.append_assoc, List.cons_append, ← h]
    rfl

/-- What is left to be done: whoever came in last begins, and the load hands out its key pair. -/
def leftover : List (StoreMove Register Nat) :=
  [.turn (.caller 2), .turn (.deliver 0 0), .turn (.caller 0)]

/-- Then nothing is left. -/
lemma overtaken_settles (t : Task) :
    ((opened 0 (some 100) "keys" (0, []) : Store Register Nat).after drawing.client
      (overtaken ++ leftover)).turn drawing.client t =
    (opened 0 (some 100) "keys" (0, [])).after drawing.client (overtaken ++ leftover) :=
  turn_eq_self [.ok (webPair "0a"), .ok (webPair "1b"), .ok (webPair "1b")] rfl rfl t

/-- A key pair that overtook a load is served when the load has ended. The calls are one on request
and one of the load, and under their names key pairs were created.

**Proof sketch.** The first part is the clause of `created_served` on what is served, and the second
its clause on the number of calls. The names come from its clause on what the calls see. -/
theorem created_served_overtaken :
    let s₀ : Store Register Nat := opened 0 (some 100) "keys" (0, [])
    (s₀.after drawing.client overtaken).turnCaller drawing.client 2 =
      (s₀.after drawing.client overtaken).setCaller 2 (.finished (.ok (webPair "1b"))) ∧
    (s₀.after drawing.client (overtaken ++ leftover)).calls.length = 1 + 1 ∧
    (s₀.after drawing.client (overtaken ++ leftover)).stage.rest.2 =
      ["nodes-web-0a", "nodes-web-1b"] := by
  intro s₀
  obtain ⟨hserved, -⟩ := created_served drawing 0 (some 100) "keys" (0, []) overtaken
  obtain ⟨-, -, -, hseen, hcount⟩ :=
    created_served drawing 0 (some 100) "keys" (0, []) (overtaken ++ leftover)
  refine ⟨?_, (hcount overtaken_settles).2 (by simp [overtaken, leftover]), ?_⟩
  · exact (hserved overtaken_filledAlone).2.2 (by decide +kernel) (overtaken.take 6)
      (.turn (.caller 1)) (overtaken.drop 7) "web" (webPair "1b") rfl ⟨1, rfl, rfl, rfl⟩
      overtaken_keeps (by decide +kernel) 2 rfl
  · have hnames := hseen Prod.snd (fun _ _ => rfl) (fun _ => rfl)
      fun f hf => absurd hf (by simp [overtaken, leftover])
    rw [hnames]
    decide +kernel

end NodeKeeper.KeyPairs
