import NodeKeeper.Proofs.Cache.SingleFlight
import NodeKeeper.Proofs.Decimal.Order
import NodeKeeper.Proofs.Session.Asking
import NodeKeeper.Proofs.Session.Getting

/-!
# How callers share loads

Callers that get the same key while it is missing share one load, however their turns and those of
the load are scheduled, and whoever of them is cancelled. A key is loaded again only after something
was put or dropped at it, or once its load has ended.

## Main definitions

* `Getting.callsFor` — how often a loader was called for a key.
* `Getting.pendingFor` — how often a loader is still to be called for a key.

## Main results

* `Getting.exists_load_of_calls`, `Getting.seen_after` — the calls are those of loaders, and there
  are no others.
* `Getting.single_flight` — after every run, loads were started one at a time.
-/

namespace NodeKeeper.Getting

open Cache (Current Failed History Orderly Sound Unfinished Vacant shown starts unsuperseded)
open Session (Forward Move Paid called events history opened)

variable {σ κ ν τ ℓ : Type} [DecidableEq κ]

/-- How often a loader was called for a key. -/
def callsFor (k : κ) (s : Session σ κ ν τ ν (Request κ ℓ) (Request κ ℓ)) : Nat :=
  s.calls.countP fun r => r.key = k

/-- How often a loader is still to be called for a key: the loads of it that have not had their
first turn. -/
def pendingFor (k : κ) (s : Session σ κ ν τ ν (Request κ ℓ) (Request κ ℓ)) : Nat :=
  s.flights.countP fun f => f.job.key = k && !f.hasCalled

/-- A loader is called once for each load. -/
lemma callsFor_add_pendingFor {s : Session σ κ ν τ ν (Request κ ℓ) (Request κ ℓ)} (H : Paid s)
    (k : κ) : callsFor k s + pendingFor k s = s.flights.countP fun f => f.job.key = k := by
  rw [callsFor, H.countP_eq, called, List.countP_map, List.countP_filter, pendingFor,
    List.countP_eq_countP_filter_add s.flights (fun f => f.job.key = k) Flight.hasCalled,
    List.countP_filter, List.countP_filter]
  rfl

variable [Add τ] [LE τ] [DecidableLE τ] [Keylike κ] (L : Loaders σ κ ν τ ℓ)

/-- Who asks for a key never sees to a job of its own: it is left to a load. -/
lemma begin_ne_errand (r : Request κ ℓ) (st : Stage σ κ ν τ) (job phase : Request κ ℓ) :
    (begin L r st).1 ≠ .errand job phase := by
  unfold begin
  split <;> simp

/-- The callers leave it to the loads to call. -/
lemma paid_after (now : τ) (ttl : Option τ) (name : String) (rest : σ)
    (ms : List (Move σ κ ν τ ν (Request κ ℓ))) :
    Paid ((opened now ttl name rest).after (client L) ms) := by
  have hopened : Paid (opened now ttl name rest :
      Session σ κ ν τ ν (Request κ ℓ) (Request κ ℓ)) := List.Perm.refl []
  exact hopened.after (begin_ne_errand L) (fun _ _ _ _ _ => by simp [client]) ms

/-! ## What the loaders are called for -/

/-- Those who get keys do not touch the world of the loaders, except by calling them. -/
lemma aloof {β : Type} (view : σ → β) : Session.Aloof (client L) view where
  start r st := by
    simp only [client, begin, Stage.request]
    rcases st.cache.request st.now r.key (L.canLoad r) with ⟨_ | _ | _ | _, _⟩ <;> rfl
  resume _ _ _ := rfl
  conclude _ _ _ := rfl
  settle _ _ _ := rfl

variable {L} in
/-- In every call that was noted down a loader was called with the request, and with the world as it
was then, in the first turn of a load.

**Proof sketch.** By `exists_asks_of_calls` each call was asked for in a turn. It is the turn of a
load, as no caller ever sees to a job of its own; and `Asks.view_turn` says what the turn does to
the world. -/
lemma exists_load_of_calls {s₀ : Session σ κ ν τ ν (Request κ ℓ) (Request κ ℓ)}
    (hs : s₀.calls = []) {ms : List (Move σ κ ν τ ν (Request κ ℓ))}
    {earlier later : List (Request κ ℓ)} {r : Request κ ℓ}
    (h : (s₀.after (client L) ms).calls = earlier ++ r :: later) :
    ∃ ms₁ l ms₂, ms = ms₁ ++ .turn (.load l) :: ms₂ ∧ (s₀.after (client L) ms₁).calls = earlier ∧
      ((s₀.after (client L) ms₁).turnLoad (client L) l).calls = earlier ++ [r] ∧
      ((s₀.after (client L) ms₁).turnLoad (client L) l).stage.rest =
        (L.load r (s₀.after (client L) ms₁).stage.rest).2 := by
  obtain ⟨ms₁, t, ms₂, st, happ, hcalls, hasks⟩ := Session.exists_asks_of_calls hs h
  have hview := hasks.view_turn id (aloof L id).conclude (aloof L id).settle
  have hnotes := hasks.calls_turn
  rw [hcalls] at hnotes
  cases hasks with
  | @load l f hf hp => exact ⟨ms₁, l, ms₂, happ, hcalls, hnotes, hview⟩
  | first hc hn => exact absurd (congrArg Prod.fst hn) (begin_ne_errand L _ _ _ _)
  | later hc hn => exact absurd (congrArg Prod.fst hn) (by simp [client])

/-- A world that writes down what its loaders are called for has written down the calls, each of
them once, and in their order. -/
lemma seen_after {seen : σ → List (Request κ ℓ)} (hload : ∀ r w, seen (L.load r w).2 = seen w ++ [r])
    (now : τ) (ttl : Option τ) (name : String) (rest : σ) {ms : List (Move σ κ ν τ ν (Request κ ℓ))}
    (hstir : ∀ f, .stir f ∈ ms → ∀ w, seen (f w) = seen w) :
    seen ((opened now ttl name rest).after (client L) ms).stage.rest =
      seen rest ++ ((opened now ttl name rest).after (client L) ms).calls := by
  obtain ⟨calls, hcalls, hseen⟩ := (aloof L seen).record_after id
    (s := opened now ttl name rest) (fun r st => hload r st.rest) hstir
  rw [hcalls, hseen, List.map_id]
  rfl

/-! ## Where loads are started -/

/-- Loads are started in the first turns of callers, by asking for a key that shows nothing and has
no shared load.

**Proof sketch.** The cases are those of how an event arises in a session. Only the first turn of a
caller asks the cache for a key. -/
lemma started_mem_events {s : Session σ κ ν τ ν (Request κ ℓ) (Request κ ℓ)}
    {m : Move σ κ ν τ ν (Request κ ℓ)} {l : Nat} {k : κ}
    (hm : .started l k ∈ events (conduct L) s m) :
    ∃ c r, m = .turn (.caller c) ∧ s.callers[c]? = some (.fresh r) ∧ r.key = k ∧
      (s.stage.cache.lookup s.stage.now k).1 = none ∧ s.stage.cache.flight? k = none := by
  cases Session.arises_of_mem hm with
  | @edited edit he => cases edit <;> exact absurd he (by simp [Edit.events])
  | played _ he => exact absurd he (Edit.started_not_mem_history _ _ _ _)
  | opened hc he =>
    obtain ⟨rfl, -, -, hl, hf⟩ := Cache.started_mem_askHistory.1 he
    exact ⟨_, _, rfl, hc, rfl, hl, hf⟩
  | resumed _ he => exact absurd he List.not_mem_nil
  | settled _ he => exact absurd he List.not_mem_nil
  | landed _ he => exact absurd he (by simp)

/-! ## Single flight -/

section Sound

variable {L} {s : Session σ κ ν τ ν (Request κ ℓ) (Request κ ℓ)} {h : History κ ν τ} {k : κ}

omit [Keylike κ] in
/-- The loads of the history are those of the session. -/
lemma started_iff_flight (H : Sound (s.ledger Request.key) h) (l : Nat) :
    .started l k ∈ h ↔ ∃ f, s.flights[l]? = some f ∧ f.job.key = k := by
  rw [H.started_iff]
  simp only [Session.ledger, Stage.ledger, List.getElem?_map, Option.map_eq_some_iff,
    Flight.account, Cache.Account.mk.injEq]
  constructor
  · rintro ⟨_, f, hf, hk, -⟩
    exact ⟨f, hf, hk⟩
  · rintro ⟨f, hf, hk⟩
    exact ⟨f.progress.hasLanded, f, hf, hk, rfl⟩

omit [Keylike κ] in
/-- A load is unfinished by the history just if there is one of that number, for that key, that has
not landed. -/
lemma unfinished_iff_flight (H : Sound (s.ledger Request.key) h) (l : Nat) :
    Unfinished l k h ↔
      ∃ f, s.flights[l]? = some f ∧ f.job.key = k ∧ f.progress.hasLanded = false := by
  rw [H.unfinished_iff_mem, H.mem_loads_iff]
  simp [Session.ledger, Stage.ledger, Flight.account]

/-- A caller that starts a load finds the key vacant. -/
lemma vacant_of_started (H : Sound (s.ledger Request.key) h) {m : Move σ κ ν τ ν (Request κ ℓ)}
    {l : Nat} (hm : .started l k ∈ events (conduct L) s m) :
    (∃ c r, m = .turn (.caller c) ∧ s.callers[c]? = some (.fresh r) ∧ r.key = k) ∧
      Vacant s.stage.cache.ttl s.stage.now k h := by
  obtain ⟨c, r, hmc, hc, hk, hl, hf⟩ := started_mem_events L hm
  exact ⟨⟨c, r, hmc, hc, hk⟩, H.vacant_iff.2 ⟨hl, hf⟩⟩

/-- Those who ask together for a vacant key start one load, and cause one call.

**Proof sketch.** By `starts_course` just one load of the key is started in the run. Each load
causes one call, which it has made or has still to make, so that there is one call more. -/
lemma ask_together [IsTrans τ (· ≤ ·)] (H : Sound (s.ledger Request.key) h) (hp : Paid s)
    (hv : Vacant s.stage.cache.ttl s.stage.now k h) {ms : List (Move σ κ ν τ ν (Request κ ℓ))}
    (hp' : Paid (s.after (client L) ms)) (hf : Forward (client L) s ms)
    (hsup : ∀ e ∈ history (conduct L) s ms, e.supersedes k = false)
    (hend : ∀ l, .started l k ∈ history (conduct L) s ms →
      ∀ v t, .ended l k v t ∉ history (conduct L) s ms)
    (hask : .asked k true ∈ history (conduct L) s ms) :
    (∃ l, starts k (history (conduct L) s ms) = [l]) ∧
      callsFor k (s.after (client L) ms) + pendingFor k (s.after (client L) ms) =
        callsFor k s + pendingFor k s + 1 := by
  have hcourse := Session.course_after (conduct L) s ms hf
  obtain ⟨l, hl⟩ : ∃ l, starts k (history (conduct L) s ms) = [l] := by
    rcases H.starts_course hv hcourse hsup hend with ⟨hn, -⟩ | ⟨l, hl, -⟩
    · exact absurd hask hn
    · exact ⟨l, hl⟩
  have hcount := hcourse.countP_flights k
  simp only [Session.ledger, Stage.ledger, List.countP_map, hl, List.length_singleton] at hcount
  exact ⟨⟨l, hl⟩, by rw [callsFor_add_pendingFor hp, callsFor_add_pendingFor hp']; exact hcount⟩

omit [Keylike κ] in
/-- A caller that finds its key vacant starts a load, if it can.

**Proof sketch.** A vacant key shows nothing and has no shared load, so that the cache starts one.
Its number is the number of loads that there were. -/
lemma askHistory_of_vacant (H : Sound (s.ledger Request.key) h)
    (hv : Vacant s.stage.cache.ttl s.stage.now k h) :
    s.stage.cache.askHistory s.stage.now k true =
      [.started s.flights.length k, .asked k true] := by
  obtain ⟨hl, hf⟩ := H.vacant_iff.1 hv
  have hnext : s.flights.length = s.stage.cache.nextLoad := by
    rw [← List.length_map (f := Flight.account Request.key)]
    exact H.length_flights
  unfold Cache.askHistory
  rcases s.stage.cache.request_cases s.stage.now k true with
    ⟨v, hl', -⟩ | ⟨-, ⟨id, hf', -⟩ | ⟨-, hr⟩⟩
  · exact absurd (hl.symm.trans hl') (by simp)
  · exact absurd (hf.symm.trans hf') (by simp)
  · rw [hr, hnext]
    rfl

end Sound

/-- **Loads are started one at a time.** The loads that were started are those of the session, and
each calls its loader once, in its first turn; a world that writes down what its loaders are called
for has written down these calls, and no others. A load of a key is started only by a caller that
finds the key showing nothing and without a current load. Hence of two loads of a key that are on
the way together, the earlier one was superseded before the later one was started; those who ask
together for a key that shows nothing start one load and cause one call; and after a current load of
a key has failed, the next caller starts a new one unless something was put at the key.

**Proof sketch.** The run is a course of the cache, and every course is orderly. A key without a
value and without a current load stays so until somebody asks for it, and a current load stays
current until it ends or is superseded. -/
theorem single_flight [IsTrans τ (· ≤ ·)] (now : τ) (ttl : Option τ) (name : String) (rest : σ)
    (ms : List (Move σ κ ν τ ν (Request κ ℓ)))
    (hf : Forward (client L) (opened now ttl name rest) ms) (k : κ) :
    let s := (opened now ttl name rest).after (client L) ms
    let h := history (conduct L) (opened now ttl name rest) ms
    -- the loads of the history are those of the session
    (∀ l, .started l k ∈ h ↔ ∃ f, s.flights[l]? = some f ∧ f.job.key = k) ∧
    (∀ l, Unfinished l k h ↔
      ∃ f, s.flights[l]? = some f ∧ f.job.key = k ∧ f.progress.hasLanded = false) ∧
    s.calls.Perm (called s.flights) ∧
    -- what the loaders are called for
    (∀ earlier r later, s.calls = earlier ++ r :: later →
      ∃ ms₁ l ms₂, ms = ms₁ ++ .turn (.load l) :: ms₂ ∧
        let s₁ := (opened now ttl name rest).after (client L) ms₁
        s₁.calls = earlier ∧ (s₁.turnLoad (client L) l).calls = earlier ++ [r] ∧
          (s₁.turnLoad (client L) l).stage.rest = (L.load r s₁.stage.rest).2) ∧
    (∀ seen : σ → List (Request κ ℓ), (∀ r w, seen (L.load r w).2 = seen w ++ [r]) →
      (∀ f, .stir f ∈ ms → ∀ w, seen (f w) = seen w) → seen s.stage.rest = seen rest ++ s.calls) ∧
    -- who starts a load
    (∀ m l, .started l k ∈ events (conduct L) s m →
      (∃ c r, m = .turn (.caller c) ∧ s.callers[c]? = some (.fresh r) ∧ r.key = k) ∧
        shown ttl s.stage.now k h = none ∧ ∀ l', ¬ Current l' k h) ∧
    -- loads that are on the way together
    (∀ l m, l < m → Unfinished l k h → Unfinished m k h →
      ∃ h₁ h₂ h₃ e, h = h₁ ++ .started m k :: h₂ ++ e :: h₃ ∧ e.supersedes k = true ∧
        .started l k ∈ h₃) ∧
    -- callers that ask together
    (shown ttl s.stage.now k h = none → (∀ l, ¬ Current l k h) →
      ∀ ms', Forward (client L) s ms' →
        (∀ e ∈ history (conduct L) s ms', e.supersedes k = false) →
        (∀ l, .started l k ∈ history (conduct L) s ms' →
          ∀ v t, .ended l k v t ∉ history (conduct L) s ms') →
        .asked k true ∈ history (conduct L) s ms' →
        (∃ l, starts k (history (conduct L) s ms') = [l]) ∧
          callsFor k (s.after (client L) ms') + pendingFor k (s.after (client L) ms') =
            callsFor k s + pendingFor k s + 1) ∧
    -- after a failure
    (∀ h₁ l t h₂, h = h₁ ++ .ended l k none t :: h₂ → unsuperseded l k h₂ = true →
      (∀ v t, .put k v t ∉ h₁) → .asked k true ∉ h₁ →
      ∀ c r, s.callers[c]? = some (.fresh r) → r.key = k → L.canLoad r = true →
        events (conduct L) s (.turn (.caller c)) =
          [.started s.flights.length k, .asked k true]) := by
  intro s h
  have hcourse := Session.course_after (conduct L) (opened now ttl name rest) ms hf
  have H : Sound (s.ledger Request.key) h := Session.sound_after (conduct L) now ttl name rest ms hf
  have hnew : Sound ((opened now ttl name rest : Session σ κ ν τ ν (Request κ ℓ)
    (Request κ ℓ)).ledger Request.key) [] := Sound.new now ttl name
  have horderly : Orderly h := by simpa using hnew.orderly_course trivial hcourse
  have httl : s.stage.cache.ttl = ttl := hcourse.ttl_eq
  have hpaid := paid_after L now ttl name rest
  refine ⟨started_iff_flight H, unfinished_iff_flight H, hpaid ms,
    fun _ _ _ hcalls => exists_load_of_calls rfl hcalls,
    fun seen hload hstir => seen_after L hload now ttl name rest hstir, ?_, ?_, ?_, ?_⟩
  · intro m l hm
    obtain ⟨hcaller, hv⟩ := vacant_of_started H hm
    rw [httl] at hv
    exact ⟨hcaller, hv.shown_eq_none, hv.not_current⟩
  · intro l m hlt hl hm
    exact horderly.superseded_between hl hm hlt
  · intro hn hc ms' hf' hsup hend hask
    rw [← httl] at hn
    refine ask_together H (hpaid ms) ⟨hn, hc⟩ ?_ hf' hsup hend hask
    rw [← Session.after_append]
    exact hpaid (ms ++ ms')
  · intro h₁ l t h₂ hh hu hput hask c r hc hk hcan
    have hended : Failed k (.ended l k none t :: h₂) := Or.inl ⟨l, t, rfl, hu⟩
    have hfail : Failed k (h ++ []) := by
      rw [List.append_nil, hh]
      exact hended.append hput hask
    have hv := hnew.vacant_of_failed (fun hn => hn.elim) hcourse hfail
    rw [List.append_nil] at hv
    have hopening : events (conduct L) s (.turn (.caller c)) =
        s.stage.cache.askHistory s.stage.now r.key (L.canLoad r) := by
      simp only [events, Session.callerHistory, hc]
      cases hb : ((client L).start r s.stage).1 with
      | errand job phase => exact absurd hb (begin_ne_errand L r s.stage job phase)
      | _ => rfl
    rw [hopening, hk, hcan]
    exact askHistory_of_vacant H hv

/-- Two callers ask for a missing key, and the loader is called. -/
def together : List (Move Unit CacheKey Nat Float Nat (Request CacheKey Unit)) :=
  [.spawn ⟨.number 7, none⟩, .spawn ⟨.number 7, none⟩, .turn (.caller 1), .turn (.caller 0),
    .turn (.load 0)]

/-- Then the load fails, and a third caller comes in. -/
def disappointed : List (Move Unit CacheKey Nat Float Nat (Request CacheKey Unit)) :=
  together ++ [.release "slow" ⟨none, [], .error .cancellation⟩, .turn (.load 0),
    .spawn ⟨.number 7, none⟩]

/-- Two callers that ask together cause one call. Once their load has failed, a third one starts the
next load.

**Proof sketch.** The theorem is applied twice, to two callers that ask together and to one that
asks after their load has failed; what it assumes of these runs is computed. -/
theorem single_flight_retry :
    Forward (client patient) (opened 0 none "cache" ()) together ∧
      callsFor (.number 7) ((opened 0 none "cache" ()).after (client patient) together) = 1 ∧
      Forward (client patient) (opened 0 none "cache" ()) disappointed ∧
      events (conduct patient) ((opened 0 none "cache" ()).after (client patient) disappointed)
          (.turn (.caller 2)) =
        [.started 1 (.number 7), .asked (.number 7) true] := by
  have htogether : Forward (client patient) (opened 0 none "cache" ()) together :=
    ⟨Or.inl rfl, Or.inl rfl, Or.inl rfl, Or.inl rfl, Or.inl rfl, trivial⟩
  have hfailed : Forward (client patient) (opened 0 none "cache" ()) disappointed :=
    ⟨Or.inl rfl, Or.inl rfl, Or.inl rfl, Or.inl rfl, Or.inl rfl, Or.inl rfl, Or.inl rfl, Or.inl rfl,
      trivial⟩
  obtain ⟨-, -, -, -, -, -, -, hcall, -⟩ :=
    single_flight patient 0 none "cache" () [] trivial (.number 7)
  obtain ⟨-, -, -, -, -, -, -, -, hretry⟩ :=
    single_flight patient 0 none "cache" () disappointed hfailed (.number 7)
  refine ⟨htogether, ?_, hfailed, ?_⟩
  · have hcurrent (l : Nat) : ¬ Current l (.number 7) ([] : History CacheKey Nat Float) :=
      fun hc => by simpa [unsuperseded] using hc.2
    have hhistory : history (conduct patient) (opened 0 none "cache" ()) together =
      [.asked (.number 7) true, .started 0 (.number 7), .asked (.number 7) true] := rfl
    have hpending : pendingFor (.number 7)
      ((opened 0 none "cache" ()).after (client patient) together) = 0 := by decide
    rw [Session.after_nil] at hcall
    have hcount := hcall rfl hcurrent together htogether
    rw [hhistory, hpending] at hcount
    exact (hcount (by simp [Cache.Event.supersedes]) (by simp) (by simp)).2
  · exact hretry [] 0 0 [.asked (.number 7) true, .started 0 (.number 7),
      .asked (.number 7) true] rfl (by decide) (by simp) (by simp) 2 ⟨.number 7, none⟩ rfl rfl rfl

end NodeKeeper.Getting
