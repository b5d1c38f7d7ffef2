import NodeKeeper.Proofs.Identity.Changes
import NodeKeeper.Proofs.Session.Exchanges
import NodeKeeper.Proofs.Session.Pool

/-!
# Where tokens come from

Several suppliers share one cache, the active credentials change all the time, tokens are forgotten,
and loads of tokens end in another order than they were started in. Still, whoever asks for a token
gets one that was granted for the very credentials that were active when it began, by a call that
was made after the token of these credentials was last forgotten.

## Main definitions

* `Supplier.Pool`, `Supplier.pool` — those who ask several suppliers for tokens, and what they do.
* `Supplier.Issuance` — the call of an authenticator that a token comes from.
* `Supplier.Entrusted` — what a caller has got so far comes from such calls.

## Main results

* `Supplier.Inspected.promises`, `Supplier.Begun.promises` — what a turn comes to, if all that the
  cache has of the credentials is right.
* `Supplier.Rightful.begin`, `Supplier.Entrusted.after` — a caller is entrusted once it has begun,
  and stays so.
* `Supplier.authenticate_of_asks` — a supplier that asks calls its authenticator.
* `Supplier.token_provenance` — tokens are neither mixed up nor handed out after they were
  forgotten.

## Implementation notes

A caller captures the active credentials in its first turn; its call begins with that turn. The
world of the suppliers tells what are the active credentials and what the wall clock says, as the
supplier sees it whose caller takes its turn; both may change between any two turns.
-/

namespace NodeKeeper

open Session (Arrives Asks Fed Obtains Yields events history opened)

namespace Supplier

variable {ι σ τ : Type}

/-- Those who ask several suppliers for tokens, and the loads of these tokens. -/
abbrev Pool (ι σ τ : Type) : Type :=
  Session (World σ τ) Credentials (Issued τ) τ (Grant τ) (ι × Phase) (ι × Credentials)

/-- What can happen to those who ask several suppliers for tokens. -/
abbrev PoolMove (ι σ τ : Type) : Type :=
  Session.Move (World σ τ) Credentials (Issued τ) τ (Grant τ) (ι × Phase)

variable [Add τ] [Sub τ] [LE τ] [DecidableLE τ]

/-- Suppliers that share a cache. -/
def pool (S : ι → Supplier σ τ) :
    Client (World σ τ) Credentials (Issued τ) τ (Grant τ) (ι × Phase) (ι × Credentials) :=
  .pool fun i => (S i).client

/-- What suppliers that share a cache do to it. -/
def poolConduct (S : ι → Supplier σ τ) : Session.Conduct (pool S) := .pool fun i => (S i).conduct

/-! ## Turns -/

section Turns

omit [Add τ] [Sub τ] [LE τ] [DecidableLE τ] in
/-- A job that comes to a token was granted one that is not empty.

**Proof sketch.** A failure and an empty token come to errors, so that neither was the case. -/
lemma conclude_eq_ok {S : Supplier σ τ} {c : Credentials} {r : Outcome (Grant τ)} {st : Stage σ τ}
    {t : Issued τ} (h : (S.conclude c r st).1 = .ok t) :
    ∃ grant, r = .ok grant ∧ t.token = grant.toToken ∧ t.token.id.isTruthy = true := by
  unfold conclude at h
  cases r with
  | error f => exact absurd h (by simp)
  | ok grant =>
    dsimp only at h
    split at h
    · exact absurd h (by simp)
    · next hid =>
      obtain rfl := Except.ok.inj h
      exact ⟨grant, rfl, rfl, by simpa [stamp] using hid⟩

omit [Add τ] [Sub τ] [LE τ] [DecidableLE τ] in
/-- A job that is rejected, or granted an empty token, fails. -/
lemma exists_conclude_eq_error (S : Supplier σ τ) {c : Credentials} {r : Outcome (Grant τ)}
    {st : Stage σ τ} (h : ∀ grant, r = .ok grant → grant.toToken.id.isTruthy = false) :
    ∃ e, (S.conclude c r st).1 = .error e := by
  cases hc : (S.conclude c r st).1 with
  | error e => exact ⟨e, rfl⟩
  | ok t =>
    obtain ⟨grant, hgrant, htoken, hid⟩ := conclude_eq_ok hc
    rw [htoken, h grant hgrant] at hid
    exact absurd hid (by simp)

/-- The caller waits for the token of these credentials, or asks a second time. -/
def Phase.isFor (k : Credentials) : Phase → Prop
  | .opening => False
  | .first j => j = k
  | .second => True

/-- What a turn comes to is right: a token is, or the load that the caller waits for; and a load
that the caller starts is one of these credentials. -/
def Promises (k : Credentials) (Right : Issued τ → Prop) (Sound : Nat → Prop) (next : Nat) :
    Turn (Issued τ) Phase Credentials → Prop
  | .done (.ok t) => Right t
  | .done (.error _) => True
  | .wait l none phase => Sound l ∧ phase.isFor k
  | .wait l (some job) phase => l = next ∧ job = k ∧ phase.isFor k
  | .errand _ _ => False

variable {S : Supplier σ τ} {k : Credentials} {Right : Issued τ → Prop} {Sound : Nat → Prop}
  {st : Stage σ τ} {next : Turn (Issued τ) Phase Credentials}
  {cache : Cache Credentials (Issued τ) τ}

/-- Looking at a token that is right leads to one that is right.

**Proof sketch.** The cases are those of the look. A token that replaces the expired one is kept for
the credentials, and a load that is joined is shared for them. -/
lemma Inspected.promises {t : Issued τ} (h : Inspected S k t st next cache) (ht : Right t)
    (hkept : ∀ e, st.cache.kept? k = some e → Right e.value)
    (hshared : ∀ l, (k, l) ∈ st.cache.inFlight → Sound l) :
    Promises k Right Sound st.cache.nextLoad next := by
  cases h with
  | valid _ => exact ht
  | dropped _ _ _ => exact ⟨rfl, rfl, trivial⟩
  | replaced _ hl _ =>
    obtain ⟨e, he, rfl⟩ := Cache.exists_kept?_of_lookup hl
    exact hkept e he
  | joined _ _ hf => exact ⟨hshared _ (Cache.mem_of_flight? hf), trivial⟩
  | started _ _ _ => exact ⟨rfl, rfl, trivial⟩

/-- A first turn leads to what is right, if all is right that the cache has of the credentials that
it captures: the token that is kept, and the load that is shared. -/
lemma Begun.promises (h : Begun S st next cache)
    (hkept : ∀ e, st.cache.kept? st.rest.active = some e → Right e.value)
    (hshared : ∀ l, (st.rest.active, l) ∈ st.cache.inFlight → Sound l) :
    Promises st.rest.active Right Sound st.cache.nextLoad next := by
  cases h with
  | shown hl hi =>
    obtain ⟨e, he, rfl⟩ := Cache.exists_kept?_of_lookup hl
    exact hi.promises (hkept e he) hkept hshared
  | joined _ hf => exact ⟨hshared _ (Cache.mem_of_flight? hf), rfl⟩
  | started _ _ => exact ⟨rfl, rfl, rfl⟩

/-- So does a later turn, if the outcome of the load was right. What it captured is what it asks for
again.

**Proof sketch.** What was captured are the credentials, so a second look is at a token of theirs.
Without a second look the outcome of the load is handed on. -/
lemma resume_promises {phase : Phase} (hp : phase.isFor k) {r : Outcome (Issued τ)}
    (hr : ∀ t, r = .ok t → Right t)
    (hkept : ∀ e, st.cache.kept? k = some e → Right e.value)
    (hshared : ∀ l, (k, l) ∈ st.cache.inFlight → Sound l) :
    Promises k Right Sound st.cache.nextLoad (S.resume phase r st).1 := by
  unfold resume
  split
  · next c t =>
    obtain rfl : c = k := hp
    exact (S.inspect_spec c t st).1.promises (hr t rfl) hkept hshared
  · cases r with
    | ok t => exact hr t rfl
    | error f => trivial

end Turns

/-! ## Callers -/

/-- A load of these credentials, one of those from a certain one on. -/
def IsLoadOf (k : Credentials) (n : Nat)
    (fs : List (Flight Credentials (Issued τ) τ (Grant τ) (ι × Credentials))) (l : Nat) : Prop :=
  n ≤ l ∧ ∃ f, fs[l]? = some f ∧ f.job.2 = k

/-- What a caller has got so far, or waits for, comes from such loads. -/
def Entrusted (k : Credentials) (n : Nat)
    (fs : List (Flight Credentials (Issued τ) τ (Grant τ) (ι × Credentials))) :
    Caller Credentials (Issued τ) τ (Grant τ) (ι × Phase) (ι × Credentials) → Prop
  | .waiting l p => IsLoadOf k n fs l ∧ p.2.isFor k
  | .answered r p => (∀ t, r = .ok t → Yields Prod.snd k n fs t) ∧ p.2.isFor k
  | .finished r => ∀ t, r = .ok t → Yields Prod.snd k n fs t
  | .cancelled => True
  | .fresh _ | .held _ _ | .freed _ _ _ => False

section Entrusted

variable {S : ι → Supplier σ τ} {k : Credentials} {n : Nat} {s : Pool ι σ τ} {c : Nat}

omit [Add τ] [Sub τ] [LE τ] [DecidableLE τ] in
/-- A load of some credentials is still one of them later on: loads keep their numbers and their
jobs. -/
lemma IsLoadOf.continued
    {fs fs' : List (Flight Credentials (Issued τ) τ (Grant τ) (ι × Credentials))} {l : Nat}
    (h : IsLoadOf k n fs l) (hcont : Session.Continued fs fs') : IsLoadOf k n fs' l := by
  obtain ⟨hle, f, hf, hk⟩ := h
  obtain ⟨f', hf', hc⟩ := hcont l f hf
  exact ⟨hle, f', hf', hc.job ▸ hk⟩

/-- A turn that comes to what is right leaves its caller entrusted.

**Proof sketch.** The cases are those of the turn. A token that is handed out at once is one of
those promised, a load that is joined is one that was promised, and a load that is started is one of
the new ones. -/
lemma Entrusted.of_promises {i : ι} {next : Turn (Issued τ) Phase Credentials}
    {y : Caller Credentials (Issued τ) τ (Grant τ) (ι × Phase) (ι × Credentials)}
    (hp : Promises k (Yields Prod.snd k n s.flights) (IsLoadOf k n s.flights) s.flights.length next)
    (hlead : (next.tag i).LeadsTo y) (hn : n ≤ s.flights.length)
    {fs : List (Flight Credentials (Issued τ) τ (Grant τ) (ι × Credentials))}
    (hfs : ∃ stage,
      fs = (({ s with stage } : Pool ι σ τ).follow (pool S) c (next.tag i)).flights)
    (hcont : Session.Continued s.flights fs) : Entrusted k n fs y := by
  rcases hlead.of_tag with ⟨r, rfl, rfl⟩ | ⟨l, job, phase, rfl, rfl⟩ | ⟨job, phase, rfl⟩
  · rintro t rfl
    exact hcont.yields hp
  · cases job with
    | none => exact ⟨hp.1.continued hcont, hp.2⟩
    | some job =>
      obtain ⟨rfl, rfl, hphase⟩ := hp
      refine ⟨⟨hn, ⟨(i, job), .fresh, [c]⟩, ?_, rfl⟩, hphase⟩
      obtain ⟨stage, rfl⟩ := hfs
      have hstart := Session.flights_startFlight_join (s := ({ s with stage } : Pool ι σ τ)) c
        (i, job) (i, phase)
      exact (congrArg (·[s.flights.length]?) hstart).trans List.getElem?_concat_length
  · exact hp.elim

/-- All that the cache has of the credentials comes from such loads. -/
structure Rightful (k : Credentials) (n : Nat) (s : Pool ι σ τ) : Prop where
  le : n ≤ s.flights.length
  nextLoad_eq : s.stage.cache.nextLoad = s.flights.length
  kept : ∀ e, s.stage.cache.kept? k = some e → Yields Prod.snd k n s.flights e.value
  shared : ∀ l, (k, l) ∈ s.stage.cache.inFlight → IsLoadOf k n s.flights l

/-- So it is if the cache has been fed with such loads, and nothing was put into it. -/
lemma Rightful.of_fed {s₀ : Pool ι σ τ} {ms : List (PoolMove ι σ τ)}
    (hv : (s₀.ledger (poolConduct S).key).Valid) (hfed : Fed (poolConduct S) s₀ ms k n)
    (hput : ∀ v t, .put k v t ∉ history (poolConduct S) s₀ ms) :
    Rightful k n (s₀.after (pool S) ms) where
  le := hfed.le
  nextLoad_eq := Session.nextLoad_eq (Session.valid_after (poolConduct S) hv ms)
  kept := fun _ he => (hfed.kept he).resolve_left fun ⟨t, hmem⟩ => hput _ t hmem
  shared := fun _ hl => hfed.shared hv hl

/-- **A caller is entrusted once it has begun**: it has captured the active credentials.

**Proof sketch.** The first turn promises only what is right, by `Inspected.promises` and its kin.
It leads to a state that is entrusted with what was promised. -/
theorem Rightful.begin (R : Rightful s.stage.rest.active n s) {p : ι × Phase}
    (hx : s.callers[c]? = some (.fresh p)) :
    ∃ y, (s.move (pool S) (.turn (.caller c))).callers[c]? = some y ∧
      Entrusted s.stage.rest.active n (s.move (pool S) (.turn (.caller c))).flights y := by
  have hcont := Session.continued_move (C := pool S) (s := s) (.turn (.caller c))
  have hpromises := ((S p.1).begin_spec s.stage).1.promises R.kept R.shared
  rw [R.nextLoad_eq] at hpromises
  have hturn := Session.turnCaller_of_fresh (C := pool S) hx
  obtain ⟨y, hy, hlead⟩ := Session.callers_follow_self (C := pool S)
    (s := { s with stage := ((pool S).start p s.stage).2 }) hx ((pool S).start p s.stage).1
  refine ⟨y, (congrArg (·.callers[c]?) hturn).trans hy, ?_⟩
  exact .of_promises hpromises hlead R.le ⟨_, congrArg Session.flights hturn⟩ hcont

/-- **One move** leaves a caller entrusted.

**Proof sketch.** The cases are those of the step of the caller. What it waits for, or has got, goes
on as `continued_move` says; a delivery hands over what the load came to; and when it is resumed it
gets what `resume_promises` promises. -/
theorem Entrusted.move (R : Rightful k n s)
    {x : Caller Credentials (Issued τ) τ (Grant τ) (ι × Phase) (ι × Credentials)}
    (hx : s.callers[c]? = some x) (H : Entrusted k n s.flights x) (m : PoolMove ι σ τ) :
    ∃ y, (s.move (pool S) m).callers[c]? = some y ∧
      Entrusted k n (s.move (pool S) m).flights y := by
  have hcont := Session.continued_move (C := pool S) (s := s) m
  have hstep := Session.callerStep_move (C := pool S) (s := s) c m
  rw [hx] at hstep
  generalize (s.move (pool S) m).callers[c]? = y' at hstep ⊢
  cases hstep with
  | same =>
    refine ⟨x, rfl, ?_⟩
    cases x with
    | waiting l p => exact ⟨H.1.continued hcont, H.2⟩
    | answered r p => exact ⟨fun t hr => hcont.yields (H.1 t hr), H.2⟩
    | finished r => exact fun t hr => hcont.yields (H t hr)
    | cancelled => trivial
    | fresh _ | held _ _ | freed _ _ _ => exact H
  | cancelled _ => exact ⟨_, rfl, trivial⟩
  | @delivered l o p hl =>
    refine ⟨_, rfl, fun t ht => hcont.yields ?_, H.2⟩
    obtain ⟨f, hf, hp⟩ := Option.map_eq_some_iff.1 hl
    obtain ⟨hn, g, hg, hk⟩ := H.1
    obtain rfl := Option.some.inj (hf.symm.trans hg)
    obtain rfl := Session.eq_ok_of_forWaiter ht
    exact ⟨l, f, hn, hf, hk, hp⟩
  | @resumed r p y hlead =>
    have hpromises := resume_promises (S := S p.1) H.2 H.1 R.kept R.shared
    rw [R.nextLoad_eq] at hpromises
    have hturn := Session.turnCaller_of_answered (C := pool S) hx
    exact ⟨y, rfl, of_promises hpromises hlead R.le ⟨_, congrArg Session.flights hturn⟩ hcont⟩
  | gaveUp => exact ⟨_, rfl, fun t ht => absurd ht (by simp)⟩
  | began p hlead | freed gate a job p | settled a job p r => exact H.elim

/-- **After every run**, a caller that was entrusted still is.

**Proof sketch.** Induction on the run, from its end, with `Entrusted.move` for the last move. The
cache stays rightful, as nobody puts a token in it. -/
theorem Entrusted.after {s₀ : Pool ι σ τ} {ms : List (PoolMove ι σ τ)}
    (ms' : List (PoolMove ι σ τ)) (hv : (s₀.ledger (poolConduct S).key).Valid)
    (hfed : Fed (poolConduct S) s₀ ms k n)
    (hput : ∀ v t, .put k v t ∉ history (poolConduct S) s₀ (ms ++ ms'))
    {x : Caller Credentials (Issued τ) τ (Grant τ) (ι × Phase) (ι × Credentials)}
    (hx : (s₀.after (pool S) ms).callers[c]? = some x)
    (H : Entrusted k n (s₀.after (pool S) ms).flights x) :
    ∃ y, (s₀.after (pool S) (ms ++ ms')).callers[c]? = some y ∧
      Entrusted k n (s₀.after (pool S) (ms ++ ms')).flights y := by
  induction ms' using List.reverseRecOn with
  | nil => exact ⟨x, by rwa [List.append_nil], by rwa [List.append_nil]⟩
  | append_singleton ms' m ih =>
    rw [← List.append_assoc] at hput ⊢
    have hbefore (v t) : .put k v t ∉ history (poolConduct S) s₀ (ms ++ ms') :=
      fun hmem => hput v t (Session.history_subset_append _ s₀ (ms ++ ms') [m] hmem)
    obtain ⟨y, hy, Hy⟩ := ih hbefore
    have R := Rightful.of_fed hv (hfed.append hv ms') hbefore
    rw [Session.after_append]
    exact Hy.move R hy m

/-- A token that a caller finishes with comes from the loads that the cache has been fed with when
the caller began, or from later ones.

**Proof sketch.** The first turn makes the caller an entrusted one, by `Rightful.begin`, and it
stays so until it finishes. Who is entrusted and finishes has a token from these loads. -/
theorem yields_of_finished {s₀ : Pool ι σ τ} {ms ms' : List (PoolMove ι σ τ)}
    (hv : (s₀.ledger (poolConduct S).key).Valid)
    (hfed : Fed (poolConduct S) s₀ ms (s₀.after (pool S) ms).stage.rest.active n)
    (hput : ∀ k v t, .put k v t ∉ history (poolConduct S) s₀ (ms ++ .turn (.caller c) :: ms'))
    {p : ι × Phase} (hp : (s₀.after (pool S) ms).callers[c]? = some (.fresh p)) {t : Issued τ}
    (hc : (s₀.after (pool S) (ms ++ .turn (.caller c) :: ms')).callers[c]? =
      some (.finished (.ok t))) :
    Yields Prod.snd (s₀.after (pool S) ms).stage.rest.active n
      (s₀.after (pool S) (ms ++ .turn (.caller c) :: ms')).flights t := by
  have hbefore (k v t) : .put k v t ∉ history (poolConduct S) s₀ ms :=
    fun hmem => hput k v t (Session.history_subset_append _ s₀ ms _ hmem)
  obtain ⟨x, hx, Hx⟩ := (Rightful.of_fed hv hfed (hbefore _)).begin (S := S) hp
  have hfirst := Session.after_append (pool S) s₀ ms [.turn (.caller c)]
  rw [Session.after_cons, Session.after_nil] at hfirst
  rw [← hfirst] at hx Hx
  obtain ⟨y, hy, Hy⟩ := Hx.after ms' hv (hfed.append hv _) (by simpa using hput _) hx
  rw [List.append_assoc, List.singleton_append] at hy Hy
  obtain rfl := Option.some.inj (hc.symm.trans hy)
  exact Hy t rfl

end Entrusted

/-! ## The call that a token comes from -/

/-- In a run, a load called the authenticator with some credentials, and the token that is given was
granted by this call. -/
structure Issuance (S : ι → Supplier σ τ) (s₀ : Pool ι σ τ) (ms : List (PoolMove ι σ τ))
    (k : Credentials) (t : Issued τ) where
  load : Nat
  supplier : ι
  /-- What had happened when the authenticator was called. -/
  before : List (PoolMove ι σ τ)
  /-- What had happened when its answer was there. -/
  received : List (PoolMove ι σ τ)
  later : List (PoolMove ι σ τ)
  eq_append : ms = received ++ .turn (.load load) :: later
  isFresh : ∃ f, (s₀.after (pool S) before).flights[load]? = some f ∧ f.progress = .fresh ∧
    f.job = (supplier, k)
  /-- The load takes its first turn, and its job is noted down as one that was called for. -/
  notes : ((s₀.after (pool S) before).turnLoad (pool S) load).calls =
    (s₀.after (pool S) before).calls ++ [(supplier, k)]
  response : Response Credentials (Issued τ) τ (Grant τ)
  events : List Log.Event
  /-- In this turn the authenticator of the supplier is called with the credentials, and with the
  service as it is then. The turn leaves the service as the call does. -/
  authenticates : (S supplier).authenticate k (s₀.after (pool S) before).stage.rest.service =
    (response, events, ((s₀.after (pool S) before).turnLoad (pool S) load).stage.rest.service)
  answer : Answer Credentials (Issued τ) τ (Grant τ)
  /-- The answer is the response of this call, or was released at the gate that the response
  names. -/
  arrives : Arrives (.load load) before answer response received
  /-- The load lands with the answer. -/
  lands : ∃ f, (s₀.after (pool S) received).flights[load]? = some f ∧ f.job = (supplier, k) ∧
    Obtains (pool S) (s₀.after (pool S) received) f answer
  grant : Grant τ
  isGranted : answer.outcome = .ok grant
  token_eq : t.token = grant.toToken

section Issuance

variable {S : ι → Supplier σ τ} {k : Credentials} {n : Nat} {t : Issued τ}

/-- A turn in which a supplier asks for a token of some credentials calls its authenticator with
them, once, and does nothing else to the service.

**Proof sketch.** The turn leaves the world as the call left it, by `Asks.view_turn`, as far as the
service is concerned: what the supplier makes of the answer gives out a number, and touches nothing
else. -/
lemma authenticate_of_asks {s : Pool ι σ τ} {u : Task} {i : ι} {st : Stage σ τ}
    (h : Asks (pool S) s u (i, k) st) : ∃ response events,
      (S i).authenticate k st.rest.service =
        (response, events, (s.turn (pool S) u).stage.rest.service) ∧
      ((pool S).call (i, k) st).1 = response := by
  refine ⟨_, ((S i).authenticate k st.rest.service).2.1, ?_, rfl⟩
  have hservice := h.view_turn World.service (fun job r st => ?_) fun _ _ _ => rfl
  · rw [hservice]
    rfl
  · change World.service ((S job.1).conclude job.2 r st).2.rest = st.rest.service
    unfold conclude
    cases r with
    | error f => rfl
    | ok grant =>
      dsimp only
      split <;> rfl

/-- What a load came to was granted to it, by the authenticator that it has called.

**Proof sketch.** The load landed in a turn, by `exists_landing`, with an answer that it had
obtained. By `exists_asks_of_obtains` it had asked for it before, in a turn in which it called its
authenticator. -/
lemma exists_issuance {now : τ} {ttl : Option τ} {name : String} {rest : World σ τ}
    {ms : List (PoolMove ι σ τ)}
    (h : Yields Prod.snd k n
      ((opened now ttl name rest : Pool ι σ τ).after (pool S) ms).flights t) :
    t.token.id.isTruthy = true ∧
      ∃ x : Issuance S (opened now ttl name rest) ms k t, n ≤ x.load := by
  obtain ⟨l, f, hn, hf, rfl, hp⟩ := h
  obtain ⟨received, later, g, a, st, rfl, hg, hjob, ha, hconclude⟩ :=
    Session.exists_landing (fun g hg => absurd hg (by simp [opened])) hf hp
  obtain ⟨grant, hgrant, htoken, hid⟩ := conclude_eq_ok hconclude.symm
  obtain ⟨before, hasks, harrives⟩ := Session.exists_asks_of_obtains rfl rfl hg ha
  rw [hjob] at hasks harrives
  obtain ⟨response, events, hauth, rfl⟩ := authenticate_of_asks hasks
  have hfresh : ∃ f', ((opened now ttl name rest : Pool ι σ τ).after (pool S) before).flights[l]? =
      some f' ∧ f'.progress = .fresh ∧ f'.job = f.job := by
    generalize hj : f.job = job at hasks
    cases hasks with
    | load hf' hp' => exact ⟨_, hf', hp', rfl⟩
  exact ⟨hid, ⟨l, f.job.1, before, received, later, rfl, hfresh, hasks.calls_turn, _, events, hauth,
    a, harrives, ⟨g, hg, hjob, ha⟩, grant, hgrant, htoken⟩, hn⟩

end Issuance

/-! ## Whatever happens -/

variable (S : ι → Supplier σ τ)

/-- In a move, the cache drops what it has for some credentials. -/
def ForgetsToken (k : Credentials) (s : Pool ι σ τ) (m : PoolMove ι σ τ) : Prop :=
  ∃ e ∈ events (poolConduct S) s m, e.supersedes k = true

/-- A supplier that is told to forget its token makes such a move. -/
lemma forgetsToken_forget (s : Pool ι σ τ) :
    ForgetsToken S s.stage.rest.active s (.edit (.invalidate s.stage.rest.active)) ∧
      (s.move (pool S) (.edit (.invalidate s.stage.rest.active))).stage = forget s.stage :=
  ⟨⟨.dropped s.stage.rest.active, List.mem_singleton_self _, by simp [Cache.Event.supersedes]⟩, rfl⟩

/-- **Tokens are neither mixed up nor handed out after they were forgotten**, as long as nobody but
the suppliers puts tokens into their cache. A caller that finishes with a token gets one that is not
empty. It was granted by a call of an authenticator with the very credentials that were active when
the caller began; and this call was made after every move before that in which the token of these
credentials was forgotten. A call that is rejected, or granted an empty token, installs nothing. All
that the cache has at any time was granted by a call with the credentials that it is kept for.

**Proof sketch.** Once the token of some credentials has been forgotten, the cache gets nothing for
them but what loads bring that are started later. A caller takes what the cache has for the
credentials that it captured, or waits for a load of them that the cache shares or that it starts
itself; hence whatever it gets comes from such a load, whose first turn is later still. In this turn
the load has called the authenticator, and what it landed with is what this call has come to. -/
theorem token_provenance (now : τ) (ttl : Option τ) (name : String) (rest : World σ τ)
    (ms : List (PoolMove ι σ τ))
    (hput : ∀ k v t, .put k v t ∉ history (poolConduct S) (opened now ttl name rest) ms) :
    let s₀ : Pool ι σ τ := opened now ttl name rest
    -- tokens that are handed out
    (∀ c t, (s₀.after (pool S) ms).callers[c]? = some (.finished (.ok t)) →
      t.token.id.isTruthy = true ∧
      (∃ ms₁ ms₂ p, ms = ms₁ ++ .turn (.caller c) :: ms₂ ∧
        (s₀.after (pool S) ms₁).callers[c]? = some (.fresh p)) ∧
      ∀ ms₁ ms₂ p, ms = ms₁ ++ .turn (.caller c) :: ms₂ →
        (s₀.after (pool S) ms₁).callers[c]? = some (.fresh p) →
          ∃ x : Issuance S s₀ ms (s₀.after (pool S) ms₁).stage.rest.active t,
            ∀ ms₃ m ms₄, ms₁ = ms₃ ++ m :: ms₄ →
              ForgetsToken S (s₀.after (pool S) ms₁).stage.rest.active
                (s₀.after (pool S) ms₃) m →
              ms₃ ++ [m] <+: x.before) ∧
    -- calls that fail
    (∀ ms₁ l ms₂ f a, ms = ms₁ ++ .turn (.load l) :: ms₂ →
      (s₀.after (pool S) ms₁).flights[l]? = some f → Obtains (pool S) (s₀.after (pool S) ms₁) f a →
        (∀ grant, a.outcome = .ok grant → grant.toToken.id.isTruthy = false) →
        (∃ e, ((s₀.after (pool S) ms₁).turnLoad (pool S) l).flights[l]? =
          some { f with progress := .landed (.error e) }) ∧
        ((s₀.after (pool S) ms₁).turnLoad (pool S) l).stage.cache.entries.Sublist
          (s₀.after (pool S) ms₁).stage.cache.entries) ∧
    -- tokens that are kept
    ∀ e ∈ (s₀.after (pool S) ms).stage.cache.entries,
      e.value.token.id.isTruthy = true ∧ Nonempty (Issuance S s₀ ms e.key e.value) := by
  intro s₀
  have hv : (s₀.ledger (poolConduct S).key).Valid := Cache.Ledger.Valid.new now ttl name
  refine ⟨fun c t hc => ?_, fun ms₁ l ms₂ f a happ hf ha hempty => ?_, fun e he => ?_⟩
  · have hbegun := Session.exists_beginning (s := s₀)
      (fun ⟨x, hx, _⟩ => absurd hx (by simp [s₀, opened])) ⟨_, hc, rfl⟩
    have hprovenance {ms₁ ms₂ p} (happ : ms = ms₁ ++ .turn (.caller c) :: ms₂)
        (hp : (s₀.after (pool S) ms₁).callers[c]? = some (.fresh p)) :
        t.token.id.isTruthy = true ∧
          ∃ x : Issuance S s₀ ms (s₀.after (pool S) ms₁).stage.rest.active t,
            ∀ ms₃ m ms₄, ms₁ = ms₃ ++ m :: ms₄ →
              ForgetsToken S (s₀.after (pool S) ms₁).stage.rest.active
                (s₀.after (pool S) ms₃) m →
              ms₃ ++ [m] <+: x.before := by
      subst happ
      obtain ⟨n, hfed, hdropped⟩ := Session.exists_fed (poolConduct S) hv
        (k := (s₀.after (pool S) ms₁).stage.rest.active) rfl rfl ms₁
      obtain ⟨hid, x, hle⟩ := exists_issuance (yields_of_finished hv hfed hput hp hc)
      refine ⟨hid, x, fun ms₃ m ms₄ happ hsup => ?_⟩
      obtain ⟨f, hf, -⟩ := x.isFresh
      have hdrop : ms₃ ++ [m] <+: ms₁ ++ .turn (.caller c) :: ms₂ := by
        rw [happ]
        simp
      have hbefore := (Session.prefix_of_arrives x.arrives).trans ⟨_, x.eq_append.symm⟩
      exact Session.prefix_of_flight hdrop hbefore
        (Nat.le_trans (hdropped ms₃ m ms₄ happ hsup) hle) hf
    obtain ⟨ms₁, ms₂, p, happ, hp⟩ := hbegun
    exact ⟨(hprovenance happ hp).1, ⟨ms₁, ms₂, p, happ, hp⟩,
      fun _ _ _ happ hp => (hprovenance happ hp).2⟩
  · obtain ⟨st, hland⟩ := Session.turnLoad_of_obtains hf ha
    obtain ⟨e, he⟩ : ∃ e, ((pool S).conclude f.job a.outcome st).1 = .error e :=
      (S f.job.1).exists_conclude_eq_error hempty
    rw [he] at hland
    refine ⟨⟨e, hland⟩, ?_⟩
    refine Session.entries_sublist_of_failed (poolConduct S) (Session.valid_after _ hv ms₁)
      (fun k v t hmem => hput k v t ?_) hland rfl
    rw [happ]
    exact Session.events_subset_history _ s₀ ms₁ (.turn (.load l)) ms₂ hmem
  · have hvalid := Session.valid_after (poolConduct S) hv ms
    have hkept := Cache.kept?_key hvalid.coherent.entry_unique he
    have hnew : Fed (poolConduct S) s₀ [] e.key 0 := .of_vacant rfl rfl (Nat.zero_le _)
    have R := Rightful.of_fed hv (hnew.append hv ms) (hput e.key)
    obtain ⟨hid, x, -⟩ := exists_issuance (R.kept e hkept)
    exact ⟨hid, ⟨x⟩⟩

/-! ## Two suppliers -/

/-- The credentials of another user. -/
def bob : Credentials := ⟨"bob", "hunter2", .accessKey⟩

/-- Two suppliers over one authenticator. The second one takes tokens for valid until they end. -/
def two (late : Bool) : Supplier Nat Float := if late then { slow with margin := 0 } else slow

/-- A caller waits for a token, which is forgotten meanwhile. The next caller, of the other
supplier, waits for another one. Then the credentials change, and a third caller comes in. The
second answer comes first. -/
def crossed : List (PoolMove Bool Nat Float) :=
  [.spawn (false, .opening), .turn (.caller 0), .turn (.load 0), .edit (.invalidate alice),
    .spawn (true, .opening), .turn (.caller 1), .turn (.load 1),
    .stir fun w => { w with active := bob }, .spawn (false, .opening), .turn (.caller 2),
    .turn (.load 2), .release "g2" ⟨none, [], .ok (.token ⟨.text "second", none⟩)⟩,
    .turn (.load 1), .turn (.deliver 1 1), .turn (.caller 1),
    .release "g1" ⟨none, [], .ok (.session "first")⟩, .turn (.load 0)]

/-- The second caller gets a token of the credentials that were active when it began, by a call that
was made after the token had been forgotten.

**Proof sketch.** Nothing is put, which is found by evaluation, so `token_provenance` applies to the
second caller. The edit that forgets the token is the fourth move. -/
theorem token_provenance_crossed :
    let s₀ : Pool Bool Nat Float := opened 0 (some 3600) "tokens" ⟨alice, 0, 0, 0⟩
    (∀ k v t, .put k v t ∉ history (poolConduct two) s₀ crossed) ∧
      ∃ x : Issuance two s₀ crossed alice ⟨⟨.text "second", none⟩, 1⟩,
        crossed.take 4 <+: x.before := by
  intro s₀
  have hnone : (history (poolConduct two) s₀ crossed).any Cache.Event.isPut = false := by
    decide +kernel
  have hput (k v t) : .put k v t ∉ history (poolConduct two) s₀ crossed :=
    fun hmem => List.any_eq_false.1 hnone _ hmem rfl
  obtain ⟨hhanded, -⟩ := token_provenance two 0 (some 3600) "tokens" ⟨alice, 0, 0, 0⟩ crossed hput
  obtain ⟨-, -, hcall⟩ := hhanded 1 ⟨⟨.text "second", none⟩, 1⟩ rfl
  obtain ⟨x, hx⟩ := hcall (crossed.take 5) (crossed.drop 6) (true, .opening) rfl rfl
  exact ⟨hput, x, hx (crossed.take 3) (.edit (.invalidate alice)) [.spawn (true, .opening)] rfl
    ⟨.dropped alice, by simp [events, Edit.events], rfl⟩⟩

end Supplier

end NodeKeeper
