import NodeKeeper.Proofs.Identity.Changes

/-!
# The figures of a move

Whatever happens to those who ask for the token of some credentials, it changes the cache in the
ways that are known, and what is counted in the session agrees with the figures of these changes.

## Main definitions

* `Supplier.Devoted` — the credentials are active, and all callers ask for their token.
* `Supplier.Accounted` — a move comes to changes of the cache with the same figures.

## Main results

* `Supplier.Devoted.move` — in routine moves, callers never ask for another token.
* `Supplier.exists_accounted` — every routine move has its figures.
-/

namespace NodeKeeper.Supplier

open Session (Unladen failures play)

/-! ## Turns -/

section Authenticator

variable {σ τ : Type} [Add τ] [Sub τ] [LE τ] [DecidableLE τ] (S : Supplier σ τ)

omit [Add τ] [Sub τ] [LE τ] [DecidableLE τ]

/-- What is granted has the next serial number; if nothing is granted, nothing happens.

**Proof sketch.** A failure is passed on, and so is a token that is empty. All other tokens are
stamped with the next number. -/
lemma conclude_cases (c : Credentials) (r : Outcome (Grant τ)) (st : Stage σ τ) :
    (∃ f, S.conclude c r st = (.error f, st)) ∨ ∃ t, (S.conclude c r st).1 = .ok t ∧
      t.serial = st.rest.nextSerial ∧
        (S.conclude c r st).2.rest = { st.rest with nextSerial := st.rest.nextSerial + 1 } := by
  unfold conclude
  cases r with
  | error f => exact Or.inl ⟨f, rfl⟩
  | ok grant =>
    dsimp only
    split
    · exact Or.inl ⟨_, rfl⟩
    · exact Or.inr ⟨_, rfl, rfl, rfl⟩

end Authenticator

variable {σ τ : Type} [Add τ] [Sub τ] [LE τ] [DecidableLE τ] {S : Supplier σ τ} {k : Credentials}
  {s : Desk σ τ}

/-- The first turn of a caller. -/
lemma stage_turnCaller_of_fresh {c : Nat} {phase : Phase}
    (hc : s.callers[c]? = some (.fresh phase)) :
    (s.turnCaller S.client c).stage = (S.begin s.stage).2 := by
  rw [Session.turnCaller_of_fresh hc]
  exact Session.stage_follow c (S.begin_ne_errand s.stage)

/-- The turn of a caller after a load has ended. -/
lemma stage_turnCaller_of_answered {c : Nat} {r : Outcome (Issued τ)} {phase : Phase}
    (hc : s.callers[c]? = some (.answered r phase)) :
    (s.turnCaller S.client c).stage = (S.resume phase r s.stage).2 := by
  rw [Session.turnCaller_of_answered hc]
  exact Session.stage_follow c (S.resume_ne_errand phase r s.stage)

/-- Other turns of callers without a job of their own do nothing to the cache. -/
lemma stage_turnCaller (hU : Unladen s) {c : Nat}
    (hf : ∀ phase, s.callers[c]? ≠ some (.fresh phase))
    (ha : ∀ r phase, s.callers[c]? ≠ some (.answered r phase)) :
    (s.turnCaller S.client c).stage = s.stage := by
  unfold Session.turnCaller
  split
  · next phase hc => exact absurd hc (hf phase)
  · next r phase hc => exact absurd hc (ha r phase)
  · next a job phase hc => exact absurd (hU c _ hc) (by simp [Caller.isLaden])
  · rfl
  · rfl

/-- A supplier that goes on after a load has ended leaves its world and the clock alone: it looks at
the token, and does something to the cache. -/
lemma rest_resume (phase : Phase) (r : Outcome (Issued τ)) (st : Stage σ τ) :
    (S.resume phase r st).2.rest = st.rest ∧ (S.resume phase r st).2.now = st.now := by
  unfold resume
  split
  · exact (S.inspect_spec _ _ st).2
  · exact ⟨rfl, rfl⟩

/-- Callers take no time, and leave the world as it is.

**Proof sketch.** The cases are those of the caller. To begin and to resume leave the rest of the
world alone, and no other turn does anything to it. -/
lemma rest_turnCaller (hU : Unladen s) (c : Nat) :
    (s.turnCaller S.client c).stage.rest = s.stage.rest ∧
      (s.turnCaller S.client c).stage.now = s.stage.now := by
  by_cases hf : ∃ phase, s.callers[c]? = some (.fresh phase)
  · obtain ⟨phase, hc⟩ := hf
    rw [stage_turnCaller_of_fresh hc]
    exact (S.begin_spec s.stage).2
  · by_cases ha : ∃ r phase, s.callers[c]? = some (.answered r phase)
    · obtain ⟨r, phase, hc⟩ := ha
      rw [stage_turnCaller_of_answered hc]
      exact rest_resume phase r s.stage
    · rw [stage_turnCaller hU (not_exists.1 hf) fun r => not_exists.1 (not_exists.1 ha r)]
      exact ⟨rfl, rfl⟩

/-- Loads leave the credentials alone.

**Proof sketch.** A load that lands concludes its job, which gives out a number at most. Otherwise
its turn does not touch what the supplier has in hand. -/
lemma active_turnLoad (l : Nat) :
    (s.turnLoad S.client l).stage.rest.active = s.stage.rest.active := by
  have hland (s : Desk σ τ) (f a) : (s.land S.client l f a).stage.rest.active =
      s.stage.rest.active := by
    rw [Session.rest_land]
    rcases S.conclude_cases f.job a.outcome (play a s.stage) with ⟨e, he⟩ | ⟨t, -, -, hrest⟩
    · rw [show S.client.conclude = S.conclude from rfl, he]
      exact congrArg World.active (Session.rest_play a s.stage)
    · rw [show S.client.conclude = S.conclude from rfl, hrest, Session.rest_play]
  have hturn := Session.loadTurn (C := S.client) (s := s) l
  generalize s.turnLoad S.client l = s' at hturn ⊢
  cases hturn with
  | idle => rfl
  | asked => rfl
  | answered => exact hland _ _ _
  | freed => exact hland _ _ _

/-! ## Callers -/

/-- The caller does not wait, or waits for the token of these credentials. -/
def IsFor {τ : Type} (k : Credentials) :
    Caller Credentials (Issued τ) τ (Grant τ) Phase Credentials → Prop
  | .waiting _ (.first j) | .answered _ (.first j) => j = k
  | _ => True

/-- The credentials are active, and all callers ask for their token. -/
structure Devoted {σ τ : Type} (k : Credentials) (s : Desk σ τ) : Prop where
  active : s.stage.rest.active = k
  callers : ∀ (c : Nat) x, s.callers[c]? = some x → IsFor k x

section Phases

variable {st : Stage σ τ} {next : Turn (Issued τ) Phase Credentials}
  {cache : Cache Credentials (Issued τ) τ} {l : Nat} {job : Option Credentials} {phase : Phase}

/-- Who has looked at a token waits for a second load at most. -/
lemma Inspected.phase_eq {t : Issued τ} (h : Inspected S k t st next cache)
    (hn : next = .wait l job phase) : phase = .second := by
  cases h with
  | dropped _ _ _ | joined _ _ _ | started _ _ _ => exact (Turn.wait.inj hn).2.2.symm
  | valid _ | replaced _ _ _ => exact absurd hn (by simp)

/-- Who comes to wait in its first turn waits for the token of the active credentials, or asks for
it a second time already. -/
lemma Begun.phase_eq (h : Begun S st next cache) (hn : next = .wait l job phase) :
    phase = .first st.rest.active ∨ phase = .second := by
  cases h with
  | shown _ hi => exact Or.inr (hi.phase_eq hn)
  | joined _ _ | started _ _ => exact Or.inl (Turn.wait.inj hn).2.2.symm

/-- Who comes to wait after a load has ended asks for the second time. -/
lemma resume_wait {r : Outcome (Issued τ)} {phase' : Phase}
    (hn : (S.resume phase r st).1 = .wait l job phase') : phase' = .second := by
  unfold resume at hn
  split at hn
  · exact (S.inspect_spec _ _ st).1.phase_eq hn
  · exact absurd hn (by simp)

end Phases

omit [Add τ] [Sub τ] [LE τ] [DecidableLE τ] in
/-- Where a turn leads, if it leads to waiting for the right token only.

**Proof sketch.** The cases are those of the turn. Only those who wait for their first load are
bound to credentials at all. -/
lemma isFor_of_leadsTo {next : Turn (Issued τ) Phase Credentials}
    {y : Caller Credentials (Issued τ) τ (Grant τ) Phase Credentials} (h : next.LeadsTo y)
    (hn : ∀ l job phase, next = .wait l job phase → phase = .first k ∨ phase = .second) :
    IsFor k y := by
  cases next with
  | done r =>
    rw [show y = .finished r from h]
    trivial
  | wait l job phase =>
    rw [show y = .waiting l phase from h]
    rcases hn l job phase rfl with rfl | rfl
    · rfl
    · trivial
  | errand job phase =>
    rcases h with rfl | ⟨r, rfl⟩
    · trivial
    · trivial

/-- **One routine move** keeps callers to the token of the active credentials.

**Proof sketch.** The credentials are changed from outside only, and not by a routine move. A caller
that begins to wait does so for the active credentials, by `begin_spec`; after its first load it is
not bound any more. -/
theorem Devoted.move (H : Devoted k s) (hU : Unladen s) {m : DeskMove σ τ}
    (hm : S.isRoutine k s m = true) : Devoted k (s.move S.client m) where
  active := by
    cases m with
    | cancel c =>
      rw [Session.move, Session.stage_cancel]
      exact H.active
    | release gate a =>
      rw [Session.move, Session.stage_release]
      exact H.active
    | edit e =>
      rw [Session.move]
      exact (congrArg World.active (s.stage.rest_apply e)).trans H.active
    | stir f =>
      rw [isRoutine, Bool.and_eq_true, beq_iff_eq] at hm
      exact hm.1
    | turn t =>
      cases t with
      | caller c => exact (congrArg World.active (rest_turnCaller hU c).1).trans H.active
      | load l => exact (active_turnLoad l).trans H.active
      | deliver l c =>
        rw [Session.move, Session.turn, Session.stage_deliver]
        exact H.active
    | spawn _ | elapse _ | schedule _ => exact H.active
  callers := by
    intro c y hy
    have hstep := Session.callerStep_move (C := S.client) (s := s) c m
    have hc := H.callers c
    rw [hy] at hstep
    generalize s.callers[c]? = x at hstep hc ⊢
    cases hstep with
    | same => exact hc y rfl
    | @delivered l o phase hl =>
      have hwait := hc _ rfl
      cases phase with
      | first j => exact hwait
      | opening | second => trivial
    | began phase hlead =>
      refine isFor_of_leadsTo hlead fun l job phase' hn => ?_
      rw [← H.active]
      exact (S.begin_spec s.stage).1.phase_eq hn
    | resumed r phase hlead =>
      exact isFor_of_leadsTo hlead fun l job phase' hn => Or.inr (resume_wait hn)
    | spawned _ | cancelled _ | freed _ _ _ _ | settled _ _ _ _ | gaveUp => trivial

/-! ## Figures of a move -/

/-- A move comes to changes of the cache whose figures are those of the session. -/
structure Accounted (S : Supplier σ τ) (k : Credentials) (old : List Nat) (s : Desk σ τ)
    (m : DeskMove σ τ) (x : Figures) : Prop where
  changes : Changes k old s.stage.cache s.stage.rest.nextSerial x
    (s.move S.client m).stage.cache (s.move S.client m).stage.rest.nextSerial
  starts : (s.move S.client m).flights.length = s.flights.length + x.starts
  fails : failures (s.move S.client m) = failures s + x.fails
  forgot : (S.forgotten s m).length = x.forgot
  dropped : S.dropped s m = x.dropped

omit [Sub τ] in
/-- The changes that come with an answer that is played.

**Proof sketch.** The time that passes changes nothing in the cache; the edits are then made as in
`changes_foldl_apply`. -/
lemma changes_play {old : List Nat} {st : Stage σ τ} {n : Nat} (hc : st.cache.Coherent)
    {a : Answer Credentials (Issued τ) τ (Grant τ)} (he : a.edits.all (isAbout k) = true)
    (ho : ∀ e ∈ st.cache.entries,
      st.cache.isFresh (play a st).now e = false → e.value.serial ∈ old) :
    Changes k old st.cache n { forgot := (a.edits.filter forgets).length } (play a st).cache n := by
  have hedits (later : Stage σ τ) (hlater : later.cache = st.cache)
      (hplay : play a st = a.edits.foldl Stage.apply later) :
      Changes k old st.cache n { forgot := (a.edits.filter forgets).length } (play a st).cache
        n := by
    rw [hplay, Stage.now_foldl_apply] at ho
    rw [← hlater] at hc ho
    rw [hplay, ← hlater]
    exact changes_foldl_apply he hc ho
  cases ht : a.took with
  | none => exact hedits st rfl (by simp [play, ht])
  | some d => exact hedits (st.advance d) rfl (by simp [play, ht])

/-- A load that lands: edits come first, then the load fails, or a token is granted to it.

**Proof sketch.** The answer is played first. Then the load is taken off the books, by `close_eq`,
either with the token that was granted to it or as one that has failed, which `conclude_cases` tells
apart. -/
lemma changes_land {old : List Nat} (hv : (s.ledger S.conduct.key).Valid) {l : Nat}
    {f : Flight Credentials (Issued τ) τ (Grant τ) Credentials} (hf : s.flights[l]? = some f)
    (hp : f.progress.hasLanded = false) {a : Answer Credentials (Issued τ) τ (Grant τ)}
    (he : a.edits.all (isAbout k) = true)
    (ho : ∀ e ∈ s.stage.cache.entries,
      s.stage.cache.isFresh (s.land S.client l f a).stage.now e = false → e.value.serial ∈ old) :
    ∃ fails, Changes k old s.stage.cache s.stage.rest.nextSerial
        { fails, forgot := (a.edits.filter forgets).length } (s.land S.client l f a).stage.cache
        (s.land S.client l f a).stage.rest.nextSerial ∧
      failures (s.land S.client l f a) = failures s + fails := by
  have hledger := Session.ledger_land S.conduct hf a
  have hcache : (s.land S.client l f a).stage.cache = _ := congrArg Cache.Ledger.cache hledger
  have hnow : (s.land S.client l f a).stage.now = _ := congrArg Cache.Ledger.now hledger
  rw [hnow] at ho
  have hplayed := changes_play (n := s.stage.rest.nextSerial) hv.coherent he ho
  obtain ⟨load, hm, -, -, hclose⟩ := (Session.valid_play a hv).close_eq (l := l)
    (k := S.conduct.key f.job) (by simp [Stage.ledger, hf, Flight.account, hp])
    (S.conclude f.job a.outcome (play a s.stage)).1.toOption
  have hfailures : failures (s.land S.client l f a) =
      failures (s.setProgress l (.landed (S.conclude f.job a.outcome (play a s.stage)).1)) := rfl
  rw [hcache, Session.rest_land, hfailures]
  change ∃ fails, Changes k old _ _ _ ((play a s.stage).cache.close (play a s.stage).now l
    (S.conclude f.job a.outcome (play a s.stage)).1.toOption)
    (S.conclude f.job a.outcome (play a s.stage)).2.rest.nextSerial ∧ _
  rw [show (play a s.stage).cache.close (play a s.stage).now l _ = _ from hclose]
  rcases S.conclude_cases f.job a.outcome (play a s.stage) with ⟨e, hc⟩ | ⟨t, ht, hs, hrest⟩
  · rw [hc, Session.rest_play]
    exact ⟨1, hplayed.step (.failed hm),
      Session.failures_setFailed hf (Flight.hasFailed_eq_false hp) e⟩
  · rw [ht, hrest]
    rw [Session.rest_play] at hs ⊢
    refine ⟨0, hplayed.step (.granted hm hs _), Session.failures_setProgress fun g hg => ?_⟩
    obtain rfl := Option.some.inj (hf.symm.trans hg)
    rw [Flight.hasFailed_eq_false hp]
    rfl

section Moves

variable {old : List Nat} {m : DeskMove σ τ}

/-- What neither changes the cache nor looks at a token has no figures.

**Proof sketch.** All figures are zero, and the cache is where it was. -/
lemma Accounted.quiet (hc : (s.move S.client m).stage.cache = s.stage.cache)
    (hn : (s.move S.client m).stage.rest.nextSerial = s.stage.rest.nextSerial)
    (hf : (s.move S.client m).flights.length = s.flights.length)
    (he : failures (s.move S.client m) = failures s) (hedits : S.edits s m = [])
    (hi : inspected? s m = none) : Accounted S k old s m 0 where
  changes := by
    rw [hc, hn]
    exact .refl
  starts := hf
  fails := he
  forgot := by
    rw [forgotten, hedits]
    rfl
  dropped := by simp [Supplier.dropped, found, hi]

/-- A move that leaves the stage alone, and starts or ends no load, is accounted for with
nothing. -/
lemma Accounted.still (hs : (s.move S.client m).stage = s.stage)
    (hf : (s.move S.client m).flights.length = s.flights.length)
    (he : failures (s.move S.client m) = failures s) (hedits : S.edits s m = [])
    (hi : inspected? s m = none) : Accounted S k old s m 0 :=
  .quiet (by rw [hs]) (by rw [hs]) hf he hedits hi

/-- The turn of a caller.

**Proof sketch.** The cases are those of the caller. A first turn changes the cache as
`Begun.changes` says, and a caller that finds its token expired as `Inspected.changes` says; all
others change nothing, and start no load. -/
lemma exists_accounted_turnCaller (hD : Devoted k s) (hU : Unladen s)
    (hv : (s.ledger S.conduct.key).Valid) (c : Nat)
    (ho : ∀ e ∈ s.stage.cache.entries,
      s.stage.cache.isFresh s.stage.now e = false → e.value.serial ∈ old) :
    ∃ x, Accounted S k old s (.turn (.caller c)) x := by
  have hunique := hv.coherent.entry_unique
  have hrest := congrArg World.nextSerial (rest_turnCaller (S := S) hU c).1
  obtain rfl := hD.active
  have hidle (hf : ∀ phase, s.callers[c]? ≠ some (.fresh phase))
      (ha : ∀ r phase, s.callers[c]? ≠ some (.answered r phase)) :
      ∃ x, Accounted S s.stage.rest.active old s (.turn (.caller c)) x := by
    refine ⟨0, .quiet (congrArg _ (stage_turnCaller hU hf ha)) hrest
      (congrArg _ (Session.flights_turnCaller hf ha)) (Session.failures_turnCaller c) rfl ?_⟩
    simp only [inspected?]
    split
    · next phase hc => exact absurd hc (hf phase)
    · next t j hc => exact absurd hc (ha _ _)
    · rfl
  cases hc : s.callers[c]? with
  | none => exact hidle (by simp [hc]) (by simp [hc])
  | some x =>
    cases x with
    | fresh phase =>
      refine ⟨{ starts := (S.begin s.stage).1.starts, dropped := _ }, ?_,
        Session.length_flights_turnCaller_of_fresh hc, Session.failures_turnCaller c, rfl, rfl⟩
      have hchanges := (S.begin_spec s.stage).1.changes (n := s.stage.rest.nextSerial) hunique ho
      rw [Session.move, Session.turn, hrest, stage_turnCaller_of_fresh hc]
      simpa [dropped, found, inspected?, hc] using hchanges
    | answered r phase =>
      have hstage := stage_turnCaller_of_answered (S := S) hc
      have hstarts := Session.length_flights_turnCaller_of_answered (C := S.client) hc
      have hplain (hr : S.resume phase r s.stage = (.done r, s.stage))
          (hi : inspected? s (.turn (.caller c)) = none) :
          ∃ x, Accounted S s.stage.rest.active old s (.turn (.caller c)) x := by
        rw [show S.client.resume = S.resume from rfl, hr] at hstarts
        rw [hr] at hstage
        exact ⟨0, .quiet (congrArg _ hstage) hrest hstarts (Session.failures_turnCaller c) rfl hi⟩
      cases phase with
      | opening => exact hplain rfl (by simp [inspected?, hc])
      | second => exact hplain rfl (by simp [inspected?, hc])
      | first j =>
        cases r with
        | error e => exact hplain rfl (by simp [inspected?, hc])
        | ok t =>
          obtain rfl : j = s.stage.rest.active := hD.callers c _ hc
          refine ⟨{ starts := (S.inspect s.stage.rest.active t s.stage).1.starts, dropped := _ },
            ?_, hstarts, Session.failures_turnCaller c, rfl, rfl⟩
          have hchanges := (S.inspect_spec s.stage.rest.active t s.stage).1.changes
            (n := s.stage.rest.nextSerial) hunique ho
          have hstage : (s.turnCaller S.client c).stage =
              (S.inspect s.stage.rest.active t s.stage).2 := hstage
          rw [Session.move, Session.turn, hrest, hstage]
          simpa [dropped, found, inspected?, hc] using hchanges
    | waiting _ _ | held _ _ | freed _ _ _ | cancelled | finished _ =>
      exact hidle (by simp [hc]) (by simp [hc])

/-- The turn of a load.

**Proof sketch.** By `loadTurn` the load lands, with an answer that comes at once or that was
waiting, and `changes_land` applies; or the turn changes nothing. -/
lemma exists_accounted_turnLoad (hv : (s.ledger S.conduct.key).Valid) {l : Nat}
    (hm : S.isRoutine k s (.turn (.load l)) = true)
    (ho : ∀ e ∈ s.stage.cache.entries,
      s.stage.cache.isFresh (s.turnLoad S.client l).stage.now e = false → e.value.serial ∈ old) :
    ∃ x, Accounted S k old s (.turn (.load l)) x := by
  have hlength := Session.length_flights_turnLoad (C := S.client) (s := s) l
  have habout : ((S.answer? s l).elim [] Answer.edits).all (isAbout k) = true := hm
  have hturn := Session.loadTurn (C := S.client) (s := s) l
  generalize hs : s.turnLoad S.client l = s' at hturn ho hlength
  have hquiet (hc : s'.stage.cache = s.stage.cache)
      (hn : s'.stage.rest.nextSerial = s.stage.rest.nextSerial) (he : failures s' = failures s)
      (ha : S.answer? s l = none) : ∃ x, Accounted S k old s (.turn (.load l)) x := by
    subst hs
    refine ⟨0, .quiet hc hn hlength he ?_ rfl⟩
    rw [edits, ha]
    rfl
  have hlanded {a : Answer Credentials (Issued τ) τ (Grant τ)} {fails : Nat}
      (ha : S.answer? s l = some a)
      (h : Changes k old s.stage.cache s.stage.rest.nextSerial
        { fails, forgot := (a.edits.filter forgets).length } s'.stage.cache
        s'.stage.rest.nextSerial)
      (he : failures s' = failures s + fails) : ∃ x, Accounted S k old s (.turn (.load l)) x := by
    subst hs
    refine ⟨_, h, hlength, he, ?_, rfl⟩
    rw [forgotten, edits, ha]
    rfl
  cases hturn with
  | idle hidle =>
    refine hquiet rfl rfl rfl ?_
    cases hf : s.flights[l]? with
    | none => simp [answer?, hf]
    | some f => rcases hidle f hf with hp | ⟨r, hp⟩ <;> simp [answer?, hf, hp]
  | @asked f gate hf hp ha =>
    refine hquiet (congrArg Cache.Ledger.cache (Session.ledger_ask S.conduct s f.job)) rfl ?_ ?_
    · refine Session.failures_setProgress (s := (s.ask S.client f.job).2) fun g hg => ?_
      obtain rfl := Option.some.inj (hf.symm.trans hg)
      simp [Flight.hasFailed, hp]
    · simp [answer?, hf, hp, ha]
  | @answered f a hf hp ha =>
    have hanswer : S.answer? s l = some a := by simp [answer?, hf, hp, ha]
    rw [hanswer] at habout
    have hask := Session.ledger_ask S.conduct s f.job
    have hcache : (s.ask S.client f.job).2.stage.cache = s.stage.cache :=
      congrArg Cache.Ledger.cache hask
    rw [← hcache] at ho
    obtain ⟨fails, hchanges, hfailures⟩ := changes_land (s := (s.ask S.client f.job).2)
      (by rw [hask]; exact hv) hf (by rw [hp]; rfl) habout ho
    rw [hcache] at hchanges
    exact hlanded hanswer hchanges hfailures
  | @freed f a hf hp =>
    have hanswer : S.answer? s l = some a := by simp [answer?, hf, hp]
    rw [hanswer] at habout
    obtain ⟨fails, hchanges, hfailures⟩ := changes_land hv hf (by rw [hp]; rfl) habout ho
    exact hlanded hanswer hchanges hfailures

/-- **Every routine move has its figures**, with all tokens taken as old whose lifetime in the cache
is over once the move has been made.

**Proof sketch.** The cases are those of the move. Edits, and the turns of callers and loads, have
their own lemmas; all other moves change nothing. -/
theorem exists_accounted (hD : Devoted k s) (hU : Unladen s) (hv : (s.ledger S.conduct.key).Valid)
    (hm : S.isRoutine k s m = true)
    (ho : ∀ e ∈ s.stage.cache.entries,
      s.stage.cache.isFresh (s.move S.client m).stage.now e = false → e.value.serial ∈ old) :
    ∃ x, Accounted S k old s m x := by
  cases m with
  | edit e =>
    have habout : isAbout k e = true := by simpa [isRoutine, edits] using hm
    have hnow : (s.stage.apply e).now = s.stage.now := s.stage.now_apply e
    rw [show (s.move S.client (.edit e)).stage.now = s.stage.now from hnow] at ho
    have hchanges : Changes k old s.stage.cache s.stage.rest.nextSerial
        { forgot := ([e].filter forgets).length } (s.stage.apply e).cache
        (s.stage.apply e).rest.nextSerial := by
      rw [Stage.rest_apply]
      exact (changes_apply habout hv.coherent.entry_unique ho).1
    exact ⟨_, hchanges, rfl, rfl, rfl, rfl⟩
  | stir f =>
    rw [isRoutine, Bool.and_eq_true, beq_iff_eq, beq_iff_eq] at hm
    exact ⟨0, .quiet rfl hm.2 rfl rfl rfl rfl⟩
  | turn t =>
    cases t with
    | caller c =>
      have hnow : (s.move S.client (.turn (.caller c))).stage.now = s.stage.now :=
        (rest_turnCaller hU c).2
      rw [hnow] at ho
      exact exists_accounted_turnCaller hD hU hv c ho
    | load l => exact exists_accounted_turnLoad hv hm ho
    | deliver l c =>
      refine ⟨0, .still (Session.stage_deliver s l c) ?_ ?_ rfl rfl⟩
      · exact congrArg List.length (Session.flights_deliver l c)
      · exact congrArg (List.countP Flight.hasFailed) (Session.flights_deliver l c)
  | cancel c =>
    refine ⟨0, .still (Session.stage_cancel s c) ?_ ?_ rfl rfl⟩
    · exact congrArg List.length (Session.flights_cancel c)
    · exact congrArg (List.countP Flight.hasFailed) (Session.flights_cancel c)
  | release gate a =>
    exact ⟨0, .still (Session.stage_release s gate a) (Session.length_flights_release gate a)
      (Session.failures_release gate a) rfl rfl⟩
  | spawn _ | elapse _ | schedule _ => exact ⟨0, .quiet rfl rfl rfl rfl rfl rfl⟩

end Moves

end NodeKeeper.Supplier
