import NodeKeeper.Proofs.Provider.KeyPairs
import NodeKeeper.Proofs.Session.Exchanges

/-!
# Where key pairs come from

Some callers create key pairs on request, others get them and have them created by loads, and all of
them share a cache. Every key pair that is handed out or kept was created by a call that was made
for its group, under a name of the group.

## Main definitions

* `KeyPairs.IsNew` — nothing has happened yet.
* `KeyPairs.FilledAlone` — nobody beside the callers puts a key pair in the cache.
* `KeyPairs.Orderly` — who creates on request sees to it itself, and who gets a key pair does not.
* `KeyPairs.Receives` — somebody who has called for an order has the answer to it.
* `KeyPairs.Creation` — the call that a key pair of a group was created by.
* `KeyPairs.Minded` — what a caller that gets the key pair of a group has got so far was created for
  it.

## Main results

* `KeyPairs.exists_creates_of_receives`, `KeyPairs.exists_creation_of_receives` — who has the answer
  to an order had a key pair created for it.
* `KeyPairs.exists_creation_of_kept` — a key pair that is kept for a group was created for it.
* `KeyPairs.exists_creation_of_got` — so was one that a caller got.

## Implementation notes

A call passes the name of the key pair alone. That it was made for a group says that the name is one
that the naming convention gives the group.
-/

namespace NodeKeeper.KeyPairs

open Session (Arrives CallsAre Earns Fed Move Obtains Yields history opened play)

variable {σ τ : Type} [Add τ] [LE τ] [DecidableLE τ] {P : KeyPairs σ τ}

/-! ## Where runs begin -/

/-- Nothing has happened yet. -/
def IsNew (s : Store σ τ) : Prop := ∃ now ttl name rest, s = opened now ttl name rest

namespace IsNew

omit [Add τ] [LE τ] [DecidableLE τ]

variable {s₀ : Store σ τ} (hs : IsNew s₀)

include hs

/-- Nobody has asked a new store for anything. -/
lemma callers : s₀.callers = [] := by
  obtain ⟨now, ttl, name, rest, rfl⟩ := hs
  rfl

/-- No load of a new store is under way. -/
lemma flights : s₀.flights = [] := by
  obtain ⟨now, ttl, name, rest, rfl⟩ := hs
  rfl

/-- Nobody waits for an answer at a new store. -/
lemma gates : s₀.gates = [] := by
  obtain ⟨now, ttl, name, rest, rfl⟩ := hs
  rfl

/-- A new store has not called the provider. -/
lemma calls : s₀.calls = [] := by
  obtain ⟨now, ttl, name, rest, rfl⟩ := hs
  rfl

/-- The ledger of a new store is in order: it has neither entries nor loads. -/
lemma valid : (s₀.ledger fun job : Order => P.keyFor job.group).Valid := by
  obtain ⟨now, ttl, name, rest, rfl⟩ := hs
  exact Cache.Ledger.Valid.new now ttl name

/-- A new store has no key pair for any key, and does not await one. -/
lemma vacant (k : CacheKey) : s₀.stage.cache.kept? k = none ∧ s₀.stage.cache.flight? k = none := by
  obtain ⟨now, ttl, name, rest, rfl⟩ := hs
  exact ⟨rfl, rfl⟩

end IsNew

variable {s₀ : Store σ τ}

/-! ## Turns -/

omit [Add τ] [LE τ] [DecidableLE τ] in
/-- If the one who asked to create a key pair gets one, it is the one that the provider made: what
follows the creation does not replace it. -/
lemma conclude_eq_ok {job : Order} {r : Outcome Value} {st : Stage σ τ} {pair : Value}
    (h : (P.conclude job r st).1 = .ok pair) : r = .ok pair := by
  unfold conclude at h
  split at h
  · exact absurd h (by simp)
  · split at h
    · exact absurd h (by simp)
    · exact congrArg Except.ok (Except.ok.inj h)

omit [Add τ] [LE τ] [DecidableLE τ] in
/-- What a load comes to is left as it is; to settle it puts nothing in its place. -/
@[simp] lemma settle_fst (P : KeyPairs σ τ) (request : Request) (r : Outcome Value)
    (st : Stage σ τ) : (P.settle request r st).1 = r := by
  cases request <;> cases r <;> rfl

/-- Who creates on request orders the key pair, and sees to the order itself. -/
lemma start_create (P : KeyPairs σ τ) (g : String) (st : Stage σ τ) :
    P.client.start (.create g) st = (.errand (P.order g st).1 (.create g), (P.order g st).2) :=
  rfl

/-- What asking for the key pair of a group comes to: it shows, or it is on the way, or a load is
started with an order for it.

**Proof sketch.** The cases are those of `Cache.request_cases`. -/
lemma begin_get (P : KeyPairs σ τ) (g : String) (st : Stage σ τ) :
    (∃ pair, (st.cache.lookup st.now (P.keyFor g)).1 = some pair ∧
      P.begin (.get g) st = (.done (.ok pair), st)) ∨
    (∃ l, (P.keyFor g, l) ∈ st.cache.inFlight ∧
      (P.begin (.get g) st).1 = .wait l none (.get g)) ∨
    (P.begin (.get g) st).1 = .wait st.cache.nextLoad
      (some ⟨g, P.naming.nameFor g (P.suffix st.rest).1⟩) (.get g) := by
  simp only [begin, Stage.request]
  rcases st.cache.request_cases st.now (P.keyFor g) true with
    ⟨pair, hl, hr⟩ | ⟨-, ⟨l, hf, hr⟩ | ⟨-, hr⟩⟩
  · rw [hr, Cache.lookup_snd_of_some hl]
    exact Or.inl ⟨pair, hl, rfl⟩
  · rw [hr]
    exact Or.inr (Or.inl ⟨l, Cache.mem_of_flight? hf, rfl⟩)
  · rw [hr, if_pos rfl]
    exact Or.inr (Or.inr rfl)

/-- Who gets the key pair of a group sees to no order itself. -/
lemma begin_get_ne_errand (P : KeyPairs σ τ) (g : String) (st : Stage σ τ) (job : Order)
    (request : Request) : (P.begin (.get g) st).1 ≠ .errand job request := by
  rcases P.begin_get g st with ⟨pair, -, hb⟩ | ⟨l, -, hb⟩ | hb <;> simp [hb]

/-- The order is one under a name of its group. -/
def IsOrder (P : KeyPairs σ τ) (job : Order) : Prop :=
  ∃ suffix, job.name = P.naming.nameFor job.group suffix

/-- All calls are orders under names of their groups.

**Proof sketch.** The only jobs are those of first turns, and both requests of a store ask for an
order. Nobody asks for a call when resumed. -/
lemma IsNew.callsAre (hs : IsNew s₀) (ms : List (StoreMove σ τ)) :
    CallsAre P.IsOrder (s₀.after P.client ms) := by
  have hnew : CallsAre P.IsOrder s₀ := ⟨by simp [hs.calls], by simp [hs.flights]⟩
  refine hnew.after (fun request st job hjob => ?_)
    (fun _ _ _ _ hjob => absurd hjob (by simp [client, Turn.job?])) ms
  change (P.begin request st).1.job? = some job at hjob
  cases request with
  | create g =>
    obtain rfl := Option.some.inj hjob
    exact ⟨_, rfl⟩
  | get g =>
    rcases P.begin_get g st with ⟨pair, -, hb⟩ | ⟨l, -, hb⟩ | hb
    · rw [hb] at hjob
      exact absurd hjob (by simp [Turn.job?])
    · rw [hb] at hjob
      exact absurd hjob (by simp [Turn.job?])
    · rw [hb] at hjob
      obtain rfl := Option.some.inj hjob
      exact ⟨_, rfl⟩

/-! ## Callers that see to a creation -/

/-- Who creates on request sees to it itself, and who gets a key pair leaves it to a load. -/
def Orderly : Caller CacheKey Value τ Value Request Order → Prop
  | .waiting _ request | .answered _ request => ∃ g, request = .get g
  | .held job request | .freed _ job request => request = .create job.group
  | .fresh _ | .cancelled | .finished _ => True

/-- Where the first turn of a caller leads is orderly.

**Proof sketch.** One that creates on request calls at once, and so has finished or is held. One
that gets waits for a load, or has finished. -/
lemma orderly_of_begin {request : Request} {st : Stage σ τ}
    {y : Caller CacheKey Value τ Value Request Order} (h : (P.begin request st).1.LeadsTo y) :
    Orderly y := by
  cases request with
  | create g =>
    rcases h with rfl | ⟨r, rfl⟩
    · rfl
    · trivial
  | get g =>
    rcases P.begin_get g st with ⟨pair, -, hb⟩ | ⟨l, -, hb⟩ | hb
    · rw [hb] at h
      rw [show y = .finished (.ok pair) from h]
      trivial
    · rw [hb] at h
      rw [show y = .waiting l (.get g) from h]
      exact ⟨g, rfl⟩
    · rw [hb] at h
      rw [show y = .waiting _ (.get g) from h]
      exact ⟨g, rfl⟩

/-- **After every run**, all callers are orderly.

**Proof sketch.** The induction is on the run, at its end. One move does with a caller what
`callerStep_move` lists, and in each case the new state is orderly because the old one was. -/
theorem IsNew.orderly (hs : IsNew s₀) (ms : List (StoreMove σ τ)) (c : Nat)
    (x : Caller CacheKey Value τ Value Request Order)
    (hx : (s₀.after P.client ms).callers[c]? = some x) : Orderly x := by
  induction ms using List.reverseRecOn generalizing x with
  | nil => exact absurd hx (by simp [hs.callers])
  | append_singleton ms m ih =>
    rw [Session.after_append] at hx
    have hstep := Session.callerStep_move (C := P.client) (s := s₀.after P.client ms) c m
    rw [Session.after_cons, Session.after_nil] at hx
    rw [hx] at hstep
    generalize (s₀.after P.client ms).callers[c]? = y at hstep ih
    cases hstep with
    | same => exact ih x rfl
    | freed gate a job request => exact ih (.held job request) rfl
    | @delivered l o request hl => exact ih (.waiting l request) rfl
    | began request hlead => exact orderly_of_begin hlead
    | resumed r request hlead =>
      rw [show x = .finished r from hlead]
      trivial
    | spawned _ | cancelled _ | settled _ _ _ _ | gaveUp => trivial

section Earning

variable {s : Store σ τ} {c : Nat} {a : Answer CacheKey Value τ Value} {job : Order}
  {request : Request} {st : Stage σ τ}

/-- Who settles a job of its own creates a key pair on request; when the answer is there, it has
changed nothing but the rest of the world.

**Proof sketch.** The cases are those of who settles a job. A request that gets has no job of its
own, and nobody has one when resumed. -/
lemma create_of_earns (hs : ∀ (d : Nat) x, s.callers[d]? = some x → Orderly x)
    (h : Earns P.client s c a job request st) :
    request = .create job.group ∧ ∃ rest, st = { s.stage with rest } := by
  cases h with
  | freed hc => exact ⟨hs c _ hc, _, rfl⟩
  | @first p st₁ st₂ hc hn ha =>
    cases p with
    | create g =>
      obtain ⟨hturn, rfl⟩ := Prod.mk.inj hn
      obtain ⟨rfl, rfl⟩ := Turn.errand.inj hturn
      obtain ⟨-, rfl⟩ := Prod.mk.inj ha
      exact ⟨rfl, _, rfl⟩
    | get g => exact absurd (congrArg Prod.fst hn) (P.begin_get_ne_errand g _ _ _)
  | later hc hn _ => exact absurd (congrArg Prod.fst hn) (by simp [client])

/-- A caller that creates on request and has to wait for the answer leaves the cache and the loads
alone.

**Proof sketch.** The order is called for and meets the gate, so that the caller is held. To order
draws a suffix, and touches nothing else. -/
lemma turnCaller_of_gate {g gate : String} (hx : s.callers[c]? = some (.fresh (.create g)))
    (hgate : (P.client.call (P.order g s.stage).1 (P.order g s.stage).2).1 = .gate gate) :
    (s.turnCaller P.client c).callers[c]? =
        some (.held (P.order g s.stage).1 (.create g)) ∧
      (s.turnCaller P.client c).flights = s.flights ∧
      (s.turnCaller P.client c).stage.cache = s.stage.cache := by
  rcases hcall : P.client.call (P.order g s.stage).1 (P.order g s.stage).2 with ⟨a | gate', st⟩
  · exact absurd (hgate.symm.trans (congrArg Prod.fst hcall)) (by simp)
  · obtain ⟨-, rfl⟩ := Prod.mk.inj hcall
    rw [Session.turnCaller_of_fresh hx, start_create]
    simp only [Session.follow, Session.ask, hcall]
    exact ⟨List.getElem?_set_self (List.getElem?_eq_some_iff.1 hx).1, rfl, rfl⟩

/-- The turn of a caller that creates on request: it has the answer, or it waits on and leaves the
cache and the loads alone.

**Proof sketch.** One that creates on request is fresh, held or freed, as it never waits for a load.
The turn of a fresh one calls, and has the answer or meets a gate; a held one stays held; a freed
one has its answer. -/
lemma earns_or_held (hs : ∀ (d : Nat) x, s.callers[d]? = some x → Orderly x) {g : String}
    (hc : (s.callers[c]?).bind Caller.phase? = some (.create g)) :
    (∃ a job st, Earns P.client s c a job (.create g) st) ∨
      (∃ job, (s.turnCaller P.client c).callers[c]? = some (.held job (.create g))) ∧
        (s.turnCaller P.client c).flights = s.flights ∧
        (s.turnCaller P.client c).stage.cache = s.stage.cache := by
  obtain ⟨x, hx, hphase⟩ := Option.bind_eq_some_iff.1 hc
  cases x with
  | cancelled | finished _ => exact absurd hphase (by simp [Caller.phase?])
  | fresh request =>
    obtain rfl := Option.some.inj hphase
    rcases hcall : P.client.call (P.order g s.stage).1 (P.order g s.stage).2 with ⟨a | gate, st⟩
    · exact Or.inl ⟨a, _, st, .first hx (P.start_create g s.stage) hcall⟩
    · obtain ⟨hheld, hleft⟩ := turnCaller_of_gate hx (congrArg Prod.fst hcall)
      exact Or.inr ⟨⟨_, hheld⟩, hleft⟩
  | waiting l request | answered r request =>
    obtain ⟨h, rfl⟩ := hs c _ hx
    exact absurd hphase (by simp [Caller.phase?])
  | held job request =>
    obtain rfl := Option.some.inj hphase
    have hturn : s.turnCaller P.client c = s := by rw [Session.turnCaller, hx]
    rw [hturn]
    exact Or.inr ⟨⟨job, hx⟩, rfl, rfl⟩
  | freed a job request =>
    obtain rfl := Option.some.inj hphase
    exact Or.inl ⟨a, job, _, .freed hx⟩

/-- A caller that completes a creation on request has got the answer to an order for the group.

**Proof sketch.** By `earns_or_held` the caller has its answer, since one that is held has not
finished. It has finished with what the answer was concluded to. -/
lemma exists_earns_of_completes (hs : ∀ (d : Nat) x, s.callers[d]? = some x → Orderly x)
    {g : String} {pair : Value} {m : StoreMove σ τ} (h : Completes P s g pair m) :
    ∃ c a job st, m = .turn (.caller c) ∧ Earns P.client s c a job (.create g) st ∧ job.group = g ∧
      a.outcome = .ok pair ∧ (P.conclude job a.outcome (play a st)).1 = .ok pair := by
  obtain ⟨c, rfl, hphase, hfinished⟩ := h
  rcases earns_or_held hs hphase with ⟨a, job, st, hearns⟩ | ⟨⟨job, hheld⟩, -⟩
  · obtain ⟨hcreate, -⟩ := create_of_earns hs hearns
    have hends := (Session.finished_of_earns hearns).symm.trans hfinished
    have hconclude := (P.settle_fst _ _ _).symm.trans (Caller.finished.inj (Option.some.inj hends))
    exact ⟨c, a, job, st, rfl, hearns, (Request.create.inj hcreate).symm, conclude_eq_ok hconclude,
      hconclude⟩
  · exact absurd (hheld.symm.trans hfinished) (by simp)

end Earning

/-! ## The call that a key pair was created by -/

/-- In a turn, somebody who has called for an order has the answer to it: a load, or a caller that
creates on request. -/
def Receives (P : KeyPairs σ τ) (s : Store σ τ) (job : Order) (a : Answer CacheKey Value τ Value) :
    Task → Prop
  | .load l => ∃ f, s.flights[l]? = some f ∧ f.job = job ∧ Obtains P.client s f a
  | .caller c => ∃ st, Earns P.client s c a job (.create job.group) st
  | .deliver _ _ => False

/-- In a run, a load or a caller that creates on request had a key pair of a group created, and the
key pair that is given is what the call has come to. -/
structure Creation (P : KeyPairs σ τ) (s₀ : Store σ τ) (ms : List (StoreMove σ τ)) (g : String)
    (pair : Value) where
  maker : Task
  suffix : String
  /-- What had happened when the creation was called. -/
  called : List (StoreMove σ τ)
  /-- What had happened when the answer was there. -/
  received : List (StoreMove σ τ)
  rest : List (StoreMove σ τ)
  eq_append : ms = received ++ .turn maker :: rest
  response : Response CacheKey Value τ Value
  /-- The creation is called with a name of the group. -/
  creates : Creates P (s₀.after P.client called) maker ⟨g, P.naming.nameFor g suffix⟩ response
  answer : Answer CacheKey Value τ Value
  /-- The answer is the response of this call, or was released at the gate that the response
  names. -/
  arrives : Arrives maker called answer response received
  receives : Receives P (s₀.after P.client received) ⟨g, P.naming.nameFor g suffix⟩ answer maker
  /-- The answer is the key pair. -/
  granted : answer.outcome = .ok pair

section Creation

variable {ms : List (StoreMove σ τ)} {g : String} {pair : Value}

/-- The run goes on. -/
lemma Creation.append (x : Creation P s₀ ms g pair) (ms' : List (StoreMove σ τ)) :
    Nonempty (Creation P s₀ (ms ++ ms') g pair) :=
  ⟨{ x with
    rest := x.rest ++ ms'
    eq_append := by simpa using congrArg (· ++ ms') x.eq_append }⟩

/-- Who has the answer to an order had a key pair created under its name, and the answer is what
this call has come to.

**Proof sketch.** The session knows of each answer the move that asked for it, by
`exists_asks_of_obtains` and `exists_asks_of_earns`. A move that asks is one that evaluates the
outside call of the store. -/
lemma exists_creates_of_receives (hs : IsNew s₀) {job : Order}
    {a : Answer CacheKey Value τ Value} {t : Task}
    (h : Receives P (s₀.after P.client ms) job a t) :
    ∃ called r, Creates P (s₀.after P.client called) t job r ∧ Arrives t called a r ms := by
  cases t with
  | deliver l c => exact h.elim
  | load l =>
    obtain ⟨f, hf, rfl, ha⟩ := h
    obtain ⟨called, hasks, harrives⟩ :=
      Session.exists_asks_of_obtains hs.gates hs.flights hf ha
    exact ⟨called, _, creates_of_asks hasks, harrives⟩
  | caller c =>
    obtain ⟨st, hearns⟩ := h
    obtain ⟨called, st', hasks, harrives⟩ :=
      Session.exists_asks_of_earns hs.gates hs.callers hearns
    exact ⟨called, _, creates_of_asks hasks, harrives⟩

/-- **Who has the answer to an order** has called for it, for the group of the order.

**Proof sketch.** The call was made by `exists_creates_of_receives`. It is on the list of calls, and
all calls are orders under names of their groups. -/
theorem exists_creation_of_receives (hs : IsNew s₀) {ms ms' : List (StoreMove σ τ)} {job : Order}
    {a : Answer CacheKey Value τ Value} {t : Task}
    (h : Receives P (s₀.after P.client ms) job a t) (ha : a.outcome = .ok pair) :
    Nonempty (Creation P s₀ (ms ++ .turn t :: ms') job.group pair) := by
  obtain ⟨called, r, hcreates, harrives⟩ := exists_creates_of_receives hs h
  have hmem : job ∈ (s₀.after P.client (called ++ [.turn t])).calls := by
    rw [Session.after_append]
    exact hcreates.notes ▸ List.mem_append_right _ (List.mem_singleton_self job)
  obtain ⟨suffix, hname⟩ := (hs.callsAre (called ++ [.turn t])).calls job hmem
  obtain ⟨group, n⟩ := job
  obtain rfl : n = P.naming.nameFor group suffix := hname
  exact ⟨⟨t, suffix, called, ms, ms', rfl, r, hcreates, a, harrives, h, ha⟩⟩

end Creation

/-! ## Key pairs that are kept -/

/-- In a run, nobody beside those who create and get key pairs puts one in their cache. -/
def FilledAlone (P : KeyPairs σ τ) (s : Store σ τ) (ms : List (StoreMove σ τ)) : Prop :=
  ∀ ms₁ m ms₂, ms = ms₁ ++ m :: ms₂ → ∀ k v, ¬ PutsBeside P (s.after P.client ms₁) k v m

/-- What holds throughout a run holds throughout its beginning. -/
lemma FilledAlone.of_append {s : Store σ τ} {ms ms' : List (StoreMove σ τ)}
    (h : FilledAlone P s (ms ++ ms')) : FilledAlone P s ms :=
  fun ms₁ m ms₂ happ k v => h ms₁ m (ms₂ ++ ms') (by simp [happ]) k v

section Kept

variable {ms : List (StoreMove σ τ)} {g : String} {pair : Value}

/-- A load of the key pair of a group that has come to one was answered with it. -/
lemma exists_creation_of_yields (hs : IsNew s₀) {n : Nat}
    (h : Yields P.conduct.key (P.keyFor g) n (s₀.after P.client ms).flights pair) :
    Nonempty (Creation P s₀ ms g pair) := by
  obtain ⟨l, f, -, hf, hkey, hp⟩ := h
  obtain ⟨ms₁, ms₂, f', a, st, rfl, hf', hjob, ha, hconclude⟩ := Session.exists_landing
    (fun g hg => absurd hg (by simp [hs.flights])) hf hp
  obtain rfl : f.job.group = g := keyFor_inj.1 hkey
  exact exists_creation_of_receives hs (t := .load l) ⟨f', hf', hjob, ha⟩
    (conclude_eq_ok hconclude.symm)

/-- **A key pair that is kept** for a group was created for it.

**Proof sketch.** What is kept was put, or has come with a load. Who puts it has created it on
request, as nobody puts anything beside the callers. -/
theorem exists_creation_of_kept (hs : IsNew s₀) (halone : FilledAlone P s₀ ms)
    {e : Cache.Entry CacheKey Value τ}
    (he : (s₀.after P.client ms).stage.cache.kept? (P.keyFor g) = some e) :
    Nonempty (Creation P s₀ ms g e.value) := by
  obtain ⟨hkept, hflight⟩ := hs.vacant (P.keyFor g)
  have hfed : Fed P.conduct s₀ ([] ++ ms) (P.keyFor g) 0 :=
    (Fed.of_vacant hkept hflight (Nat.zero_le _)).append hs.valid ms
  rcases hfed.kept he with ⟨t, hput⟩ | hyields
  · obtain ⟨ms₁, m, ms₂, rfl, hcompletes | hbeside⟩ := placed_of_put hput
    · obtain ⟨c, a, job, st, rfl, hearns, rfl, ha, -⟩ :=
        exists_earns_of_completes (hs.orderly ms₁) hcompletes
      exact exists_creation_of_receives hs (t := .caller c) ⟨st, hearns⟩ ha
    · exact absurd hbeside (halone ms₁ m ms₂ rfl _ _)
  · exact exists_creation_of_yields hs hyields

end Kept

/-! ## Key pairs that are handed out -/

/-- What a caller that gets the key pair of a group has got so far was created for the group, or is
what a load of it will come to. -/
def Minded (P : KeyPairs σ τ) (s₀ : Store σ τ) (ms : List (StoreMove σ τ)) (g : String) :
    Caller CacheKey Value τ Value Request Order → Prop
  | .fresh request => request = .get g
  | .waiting l _ => ∃ f, (s₀.after P.client ms).flights[l]? = some f ∧ f.job.group = g
  | .answered r _ | .finished r => ∀ pair, r = .ok pair → Nonempty (Creation P s₀ ms g pair)
  | .cancelled => True
  | .held _ _ | .freed _ _ _ => False

section Minded

variable {ms : List (StoreMove σ τ)} {g : String} {c : Nat}

/-- The first turn of a caller that gets the key pair of a group.

**Proof sketch.** By `begin_get` the caller finds a pair in the cache, which was created for the
group as the entry is kept for it; or it joins a load of this key, whose order is for the same
group; or it starts one with such an order. -/
lemma Minded.began (hs : IsNew s₀) (halone : FilledAlone P s₀ ms)
    (hx : (s₀.after P.client ms).callers[c]? = some (.fresh (.get g)))
    {y : Caller CacheKey Value τ Value Request Order}
    (hlead : (P.begin (.get g) (s₀.after P.client ms).stage).1.LeadsTo y) :
    Minded P s₀ (ms ++ [.turn (.caller c)]) g y := by
  have hv : ((s₀.after P.client ms).ledger P.conduct.key).Valid :=
    Session.valid_after P.conduct hs.valid ms
  have hcont := Session.continued_move (C := P.client) (s := s₀.after P.client ms)
    (.turn (.caller c))
  have hafter : s₀.after P.client (ms ++ [.turn (.caller c)]) =
      (s₀.after P.client ms).turnCaller P.client c := Session.after_append _ _ _ _
  rcases P.begin_get g (s₀.after P.client ms).stage with ⟨pair, hl, hb⟩ | ⟨l, hl, hb⟩ | hb
  · rw [hb] at hlead
    rw [show y = .finished (.ok pair) from hlead]
    rintro pair' hpair
    obtain rfl := Except.ok.inj hpair
    obtain ⟨e, he, rfl⟩ := Cache.exists_kept?_of_lookup hl
    obtain ⟨x⟩ := exists_creation_of_kept hs halone he
    exact x.append _
  · rw [hb] at hlead
    rw [show y = .waiting l (.get g) from hlead]
    obtain ⟨f, hf, hkey, -⟩ := Session.exists_shared hv hl
    obtain ⟨f', hf', hc⟩ := hcont l f hf
    exact ⟨f', hafter ▸ hf', hc.job ▸ keyFor_inj.1 hkey⟩
  · rw [hb] at hlead
    rw [show y = .waiting _ (.get g) from hlead]
    rw [Session.nextLoad_eq hv] at hb ⊢
    have hflights := Session.flights_turnCaller_of_wait (C := P.client) hx hb
    rw [← hafter] at hflights
    exact ⟨_, (congrArg (·[_]?) hflights).trans List.getElem?_concat_length, rfl⟩

/-- **One move** leaves a caller with what was created for its group.

**Proof sketch.** The cases are those of `callerStep_move`. A load keeps its job while the caller
waits for it; what it delivers was created for its order, by `exists_creation_of_yields`; and a pair
that was created stays created. -/
theorem Minded.move (hs : IsNew s₀) (halone : FilledAlone P s₀ ms) (m : StoreMove σ τ)
    {x : Caller CacheKey Value τ Value Request Order}
    (hx : (s₀.after P.client ms).callers[c]? = some x) (H : Minded P s₀ ms g x) :
    ∃ y, (s₀.after P.client (ms ++ [m])).callers[c]? = some y ∧
      Minded P s₀ (ms ++ [m]) g y := by
  have hcont := Session.continued_move (C := P.client) (s := s₀.after P.client ms) m
  have hstep := Session.callerStep_move (C := P.client) (s := s₀.after P.client ms) c m
  have hafter : s₀.after P.client (ms ++ [m]) = (s₀.after P.client ms).move P.client m :=
    Session.after_append _ _ _ _
  have hmore {r : Outcome Value} (h : ∀ pair, r = .ok pair → Nonempty (Creation P s₀ ms g pair)) :
      ∀ pair, r = .ok pair → Nonempty (Creation P s₀ (ms ++ [m]) g pair) :=
    fun pair hr => (h pair hr).elim fun made => made.append [m]
  rw [hx] at hstep
  rw [hafter]
  generalize ((s₀.after P.client ms).move P.client m).callers[c]? = y' at hstep ⊢
  cases hstep with
  | same =>
    refine ⟨x, rfl, ?_⟩
    cases x with
    | fresh request => exact H
    | waiting l request =>
      obtain ⟨f, hf, hg⟩ := H
      obtain ⟨f', hf', hc⟩ := hcont l f hf
      exact ⟨f', hafter ▸ hf', hc.job ▸ hg⟩
    | answered r request => exact hmore H
    | finished r => exact hmore H
    | cancelled => trivial
    | held _ _ | freed _ _ _ => exact H
  | cancelled _ => exact ⟨_, rfl, trivial⟩
  | @delivered l o request hl =>
    refine ⟨_, rfl, hmore fun pair hpair => ?_⟩
    obtain ⟨f, hf, hg⟩ := H
    obtain ⟨f', hf', hp⟩ := Option.map_eq_some_iff.1 hl
    obtain rfl := Option.some.inj (hf.symm.trans hf')
    obtain rfl := Session.eq_ok_of_forWaiter hpair
    exact exists_creation_of_yields hs ⟨l, f, Nat.zero_le l, hf, keyFor_inj.2 hg, hp⟩
  | began request hlead =>
    obtain rfl : request = .get g := H
    exact ⟨_, rfl, .began hs halone hx hlead⟩
  | @resumed r request y hlead =>
    rw [show y = .finished r from hlead]
    exact ⟨_, rfl, hmore H⟩
  | gaveUp => exact ⟨_, rfl, fun pair hpair => absurd hpair (by simp)⟩
  | freed gate a job request | settled a job request r => exact H.elim

/-- **A key pair that a caller got** for a group was created for it.

**Proof sketch.** By induction on the later run the caller is minded after every part of it, with
`Minded.move` as the step. -/
theorem exists_creation_of_got (hs : IsNew s₀) {ms' : List (StoreMove σ τ)}
    (halone : FilledAlone P s₀ (ms ++ ms'))
    (hx : (s₀.after P.client ms).callers[c]? = some (.fresh (.get g))) {pair : Value}
    (hc : (s₀.after P.client (ms ++ ms')).callers[c]? = some (.finished (.ok pair))) :
    Nonempty (Creation P s₀ (ms ++ ms') g pair) := by
  have hminded (ms' : List (StoreMove σ τ)) (halone : FilledAlone P s₀ (ms ++ ms')) :
      ∃ y, (s₀.after P.client (ms ++ ms')).callers[c]? = some y ∧
        Minded P s₀ (ms ++ ms') g y := by
    induction ms' using List.reverseRecOn with
    | nil => exact ⟨.fresh (.get g), by rwa [List.append_nil], rfl⟩
    | append_singleton ms' m ih =>
      rw [← List.append_assoc] at halone ⊢
      obtain ⟨y, hy, Hy⟩ := ih halone.of_append
      exact Hy.move hs halone.of_append m hy
  obtain ⟨y, hy, Hy⟩ := hminded ms' halone
  obtain rfl := Option.some.inj (hc.symm.trans hy)
  exact Hy pair rfl

end Minded

end NodeKeeper.KeyPairs
