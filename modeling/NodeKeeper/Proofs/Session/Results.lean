import NodeKeeper.Proofs.Session.Bystanders
import NodeKeeper.Proofs.Session.Sharing

/-!
# What callers get

A caller that gets a key is shown the value that the key shows, or shares the current load of the
key, or has its own loader start one. Whatever happens afterwards, it gets what that load comes to,
unless it is cancelled itself. Of a load that was cancelled it learns no more than that.

## Main definitions

* `Getting.Served` — what a first turn comes to, by the history of the run.
* `Getting.Decided` — what a caller decides in it, by the tables of the cache.

## Main results

* `Getting.served_of_fresh` — it comes to one of four things.
* `Getting.get_entitled` — callers get what they are entitled to, whoever else is cancelled.
* `Getting.get_withheld` — a caller does not get the very error of its load.
-/

namespace NodeKeeper.Getting

open Cache (Current History Sound shown)
open Session (Due Forward HasJoined Leg Linked Paid Relays Shares forWaiter history opened
  spareWaiting)

variable {σ κ ν τ ℓ : Type} [Add τ] [LE τ] [DecidableLE τ] [DecidableEq κ] [Keylike κ]
variable (L : Loaders σ κ ν τ ℓ)

/-! ## First turns -/

/-- What the first turn of a caller comes to, by the history of the cache. -/
inductive Served (s : Session σ κ ν τ ν (Request κ ℓ) (Request κ ℓ)) (c : Nat) (r : Request κ ℓ)
    (h : History κ ν τ) (s' : Session σ κ ν τ ν (Request κ ℓ) (Request κ ℓ)) : Prop
  /-- The key shows a value. The caller finishes with it, and no load is started. -/
  | shown {v : ν} (hv : shown s.stage.cache.ttl s.stage.now r.key h = some v)
      (hc : s'.callers[c]? = some (.finished (.ok v))) (hf : s'.flights = s.flights)
      (hcalls : s'.calls = s.calls)
  /-- The key shows nothing and has a current load. The caller joins it. -/
  | joined {l : Nat} (hn : shown s.stage.cache.ttl s.stage.now r.key h = none)
      (hl : Current l r.key h) (hc : s'.callers[c]? = some (.waiting l r))
      (hf : s'.flights = s.flights.modify l fun f => { f with waiters := f.waiters ++ [c] })
      (hcalls : s'.calls = s.calls)
  /-- The key shows nothing and has no current load. One is started for the caller, whose request
  says by which loader. -/
  | started (hn : shown s.stage.cache.ttl s.stage.now r.key h = none)
      (hl : ∀ l, ¬ Current l r.key h) (hcan : L.canLoad r = true)
      (hc : s'.callers[c]? = some (.waiting s.flights.length r))
      (hf : s'.flights = s.flights ++ [⟨r, .fresh, [c]⟩]) (hcalls : s'.calls = s.calls)
  /-- Nobody can load the key. The caller fails, and the cache loses nothing but the entry of the
  key, if that has expired. -/
  | refused (hn : shown s.stage.cache.ttl s.stage.now r.key h = none)
      (hl : ∀ l, ¬ Current l r.key h) (hcan : L.canLoad r = false)
      (hc : s'.callers[c]? = some (.finished (.error (s.stage.cache.noLoaderFault r.key))))
      (hf : s'.flights = s.flights) (hcalls : s'.calls = s.calls)
      (hcache : s'.stage.cache = s.stage.cache.dropEntry r.key)

/-- What a caller decides that asks for its key, and what becomes of the cache. -/
inductive Decided (r : Request κ ℓ) (st : Stage σ κ ν τ) :
    Turn ν (Request κ ℓ) (Request κ ℓ) → Cache κ ν τ → Prop
  | shown {v : ν} (hl : (st.cache.lookup st.now r.key).1 = some v) :
      Decided r st (.done (.ok v)) st.cache
  | joined {l : Nat} (hl : (st.cache.lookup st.now r.key).1 = none)
      (hf : st.cache.flight? r.key = some l) :
      Decided r st (.wait l none r) (st.cache.dropEntry r.key)
  | started (hl : (st.cache.lookup st.now r.key).1 = none) (hf : st.cache.flight? r.key = none)
      (hcan : L.canLoad r = true) :
      Decided r st (.wait st.cache.nextLoad (some r) r)
        ((st.cache.dropEntry r.key).startLoad r.key)
  | refused (hl : (st.cache.lookup st.now r.key).1 = none) (hf : st.cache.flight? r.key = none)
      (hcan : L.canLoad r = false) :
      Decided r st (.done (.error (st.cache.noLoaderFault r.key))) (st.cache.dropEntry r.key)

/-- To start a request for a key changes nothing but the cache, and decides one of four things: to
be done with what is kept, to join a load, to start one, or to give up without one.

**Proof sketch.** The cases are those of `request_cases`: something is shown, a load is shared, or
neither. In the last case it depends on whether the key can be loaded. -/
lemma start_spec (r : Request κ ℓ) (st : Stage σ κ ν τ) :
    ∃ next cache, (client L).start r st = (next, { st with cache }) ∧
      Decided L r st next cache := by
  have hrequest : st.request r.key (L.canLoad r) =
      ((st.cache.request st.now r.key (L.canLoad r)).1,
        { st with cache := (st.cache.request st.now r.key (L.canLoad r)).2 }) := rfl
  simp only [client, begin, hrequest]
  rcases st.cache.request_cases st.now r.key (L.canLoad r) with
    ⟨v, hl, hr⟩ | ⟨hl, ⟨l, hf, hr⟩ | ⟨hf, hr⟩⟩
  · rw [hr, Cache.lookup_snd_of_some hl]
    exact ⟨_, _, rfl, .shown hl⟩
  · rw [hr, Cache.lookup_snd_of_none hl]
    exact ⟨_, _, rfl, .joined hl hf⟩
  · rw [hr, Cache.lookup_snd_of_none hl]
    cases hcan : L.canLoad r with
    | true => exact ⟨_, _, rfl, .started hl hf hcan⟩
    | false => exact ⟨_, _, rfl, .refused hl hf hcan⟩

/-- A caller that gets a key waits for the load that the cache shares, or starts one.

**Proof sketch.** A first turn waits for a load that the cache shares, or for one that it starts.
Nobody waits when resumed. -/
lemma shares : Shares (client L) where
  start r st l job phase h := by
    obtain ⟨next, cache, hb, hd⟩ := start_spec L r st
    rw [hb] at h
    cases hd with
    | joined hl hf =>
      obtain ⟨rfl, rfl, -⟩ := Turn.wait.inj h
      exact ⟨r.key, Cache.mem_of_flight? hf⟩
    | started _ _ _ =>
      obtain ⟨rfl, rfl, -⟩ := Turn.wait.inj h
      exact rfl
    | shown _ | refused _ _ _ => exact absurd h (by simp)
  resume _ _ _ _ _ _ h := absurd h (by simp [client])

/-- Who was answered by a load passes its outcome on. -/
lemma relays : Relays (client L) := fun _ _ _ => rfl

variable {L}

/-- **What a first turn comes to.**

**Proof sketch.** By `start_spec` the request decides one of four things, by what the cache shows
and shares. As the history is sound, that is what the history says. -/
theorem served_of_fresh {s : Session σ κ ν τ ν (Request κ ℓ) (Request κ ℓ)} {h : History κ ν τ}
    (H : Sound (s.ledger Request.key) h) {c : Nat} {r : Request κ ℓ}
    (hc : s.callers[c]? = some (.fresh r)) :
    Served L s c r h (s.move (client L) (.turn (.caller c))) := by
  have hshown : (s.stage.cache.lookup s.stage.now r.key).1 = _ := H.tells.lookup_eq r.key
  have hcurrent : s.stage.cache.flight? r.key = none ↔ _ := H.flight?_eq_none_iff (k := r.key)
  obtain ⟨next, cache, hb, hd⟩ := start_spec L r s.stage
  rw [Session.move, Session.turn, Session.turnCaller_of_fresh hc, hb]
  cases hd with
  | shown hl =>
    exact .shown (hshown.symm.trans hl) (Session.callers_setCaller_self hc _) rfl rfl
  | joined hl hf =>
    exact .joined (hshown.symm.trans hl) ((H.mem_inFlight_iff r.key _).1 (Cache.mem_of_flight? hf))
      (Session.callers_setCaller_self hc (.waiting _ r)) rfl rfl
  | started hl hf hcan =>
    have hnext : s.stage.cache.nextLoad = s.flights.length := Session.nextLoad_eq H.valid
    rw [hnext]
    exact .started (hshown.symm.trans hl) (hcurrent.1 hf) hcan
      (Session.callers_setCaller_self hc (.waiting s.flights.length r))
      (Session.flights_startFlight_join c r r) rfl
  | refused hl hf hcan =>
    exact .refused (hshown.symm.trans hl) (hcurrent.1 hf) hcan
      (Session.callers_setCaller_self hc _) rfl rfl rfl

/-! ## Whatever happens -/

variable (L)

/-- **Callers get what they are entitled to**, whoever else is cancelled. The first turn of a caller
comes to what the history of the run says. Once the load that a caller has joined lands, the caller
finishes with what the load came to, within two passes, and so do all who have joined it. Whether
callers that wait are cancelled or not makes no difference to the other callers, the loads, the
calls outside, and the cache.

**Proof sketch.** A caller that waits has joined its load, the load forgets nobody, and once it has
landed the turns are due that hand its outcome over. Two runs that differ in cancelled callers alone
are compared move by move. -/
theorem get_entitled [IsTrans τ (· ≤ ·)] (now : τ) (ttl : Option τ) (name : String) (rest : σ) :
    let s₀ : Session σ κ ν τ ν (Request κ ℓ) (Request κ ℓ) := opened now ttl name rest
    (∀ ms, Forward (client L) s₀ ms → ∀ c r,
      (s₀.after (client L) ms).callers[c]? = some (.fresh r) →
        Served L (s₀.after (client L) ms) c r (history (conduct L) s₀ ms)
          ((s₀.after (client L) ms).move (client L) (.turn (.caller c)))) ∧
      (∀ ms, Paid (s₀.after (client L) ms)) ∧
      (∀ ws c l r, HasJoined (client L) s₀ ws c l →
        (s₀.along (client L) ws).callers[c]? = some (.finished r) →
          ∃ f o, (s₀.along (client L) ws).flights[l]? = some f ∧ f.progress = .landed o ∧
            r = forWaiter o) ∧
      (∀ ws c l f o, HasJoined (client L) s₀ ws c l → (∀ q, .move (.schedule q) ∉ ws) →
        (s₀.along (client L) ws).flights[l]? = some f → f.progress = .landed o →
          (s₀.along (client L) (ws ++ [.pass, .pass])).callers[c]? =
            some (.finished (forWaiter o))) ∧
      (∀ ws c d l r r', HasJoined (client L) s₀ ws c l → HasJoined (client L) s₀ ws d l →
        (s₀.along (client L) ws).callers[c]? = some (.finished r) →
          (s₀.along (client L) ws).callers[d]? = some (.finished r') → r = r') ∧
      ∀ (spared : Nat → Bool) ws,
        let s := s₀.along (client L) ws
        let s' := s₀.along (client L) (spareWaiting (client L) spared s₀ ws)
        s.stage = s'.stage ∧ s.flights = s'.flights ∧ s.calls = s'.calls ∧
          ∀ c, spared c = false → s.callers[c]? = s'.callers[c]? := by
  intro s₀
  have hopened : (s₀.ledger (conduct L).key).Valid := Cache.Ledger.Valid.new now ttl name
  have hvalid := Session.valid_along (conduct L) hopened
  have hlinked := (Linked.opened now ttl name rest).along (conduct L) (shares L) hopened
  have hdue (ws : List (Leg σ κ ν τ ν (Request κ ℓ))) (hw : ∀ q, .move (.schedule q) ∉ ws) :
      Due [] (s₀.along (client L) ws) :=
    (Due.opened now ttl name rest).along (conduct L) (shares L) hopened
      (Linked.opened now ttl name rest) hw
  refine ⟨fun ms hf c r hc => ?_, paid_after L now ttl name rest, fun ws c l r hj hr => ?_,
    fun ws c l f o hj hw hf ho => ?_, fun ws c d l r r' hj hj' hr hr' => ?_, fun spared ws => ?_⟩
  · exact served_of_fresh (Session.sound_after (conduct L) now ttl name rest ms hf) hc
  · obtain ⟨phase, he⟩ := hj.entitled (relays L) hlinked
    exact he.exists_landed hr
  · obtain ⟨phase, he⟩ := hj.entitled (relays L) hlinked
    rw [Session.along_append]
    exact Session.finished_of_landed (relays L) (conduct L) (shares L) (hvalid ws) (hlinked ws)
      (hdue ws hw) he hf ho
  · obtain ⟨phase, he⟩ := hj.entitled (relays L) hlinked
    obtain ⟨phase', he'⟩ := hj'.entitled (relays L) hlinked
    exact he.eq_of_finished he' hr hr'
  · obtain ⟨cs, hcs, H⟩ := Session.alike_spareWaiting (relays L) spared (.refl s₀) (by simp) ws
    refine ⟨H.stage, H.flights, H.calls, fun c hc => H.others c fun hmem => ?_⟩
    exact absurd (hcs c hmem) (by simp [hc])

/-- Two callers share a load. Another value is put meanwhile, and one of them is cancelled. Then the
load lands. -/
def deserted : List (Leg Unit CacheKey Nat Float Nat (Request CacheKey Unit)) :=
  [.move (.spawn ⟨.number 7, none⟩), .move (.spawn ⟨.number 7, none⟩), .pass, .pass,
    .move (.edit (.put (.number 7) 2)), .move (.cancel 1),
    .move (.release "slow" ⟨none, [], .ok 1⟩), .pass]

/-- The caller that is left gets what the load came to. It would have got the same if the other one
had not been cancelled.

**Proof sketch.** The two claims on what the caller gets and on what is the same are those of
`get_entitled`; that it joined the load is found by evaluation. -/
theorem get_entitled_deserted :
    let s₀ := opened 0 none "cache" ()
    let spared := spareWaiting (client patient) (· == 1) s₀ deserted
    (s₀.along (client patient) (deserted ++ [.pass, .pass])).callers[0]? =
        some (.finished (.ok 1)) ∧
      spared.length + 1 = deserted.length ∧
      (s₀.along (client patient) deserted).stage = (s₀.along (client patient) spared).stage := by
  intro s₀ spared
  obtain ⟨-, -, -, hlanded, -, hspared⟩ := get_entitled patient 0 none "cache" ()
  have hjoined : HasJoined (client patient) s₀ deserted 0 0 :=
    ⟨deserted.take 3, deserted.drop 3, ⟨.number 7, none⟩, rfl, rfl, by simp [deserted]⟩
  exact ⟨hlanded deserted 0 0 _ (.ok 1) hjoined (by simp [deserted]) rfl rfl, rfl,
    (hspared (· == 1) deserted).1⟩

/-- What a load ends with that was cancelled, and told why. -/
def told : Fault := .plain .cancelled (some "boom")

/-- A caller waits for a load that is cancelled. -/
def withheld : List (Leg Unit CacheKey Nat Float Nat (Request CacheKey Unit)) :=
  [.move (.spawn ⟨.number 7, none⟩), .pass, .pass,
    .move (.release "slow" ⟨none, [], .error told⟩), .pass, .pass, .pass]

/-- A caller comes in that nobody can serve, when an entry of its key has expired. -/
def stranded : List (Leg Unit CacheKey Nat Float Nat (Request CacheKey Unit)) :=
  [.move (.edit (.put (.number 7) 1)), .move (.elapse 2), .move (.spawn ⟨.number 7, none⟩)]

/-- **A caller does not get the very error of its load**, if the load was cancelled: it does not
learn why. Nor does a caller that nobody can serve leave all of the cache as it was: it takes an
expired entry out. -/
theorem get_withheld :
    let s := (opened 0 none "cache" ()).along (client patient) withheld
    let L := { patient with hasDefault := false }
    let s' := (opened 0 (some 1) "cache" ()).along (client L) stranded
    ((∃ f, s.flights[0]? = some f ∧ 0 ∈ f.waiters ∧ f.progress = .landed (.error told)) ∧
        s.callers[0]? = some (.finished (.error .cancellation)) ∧
        told.message ≠ Fault.cancellation.message) ∧
      s'.stage.cache.entries.map Cache.Entry.value = [1] ∧
        (s'.pass (client L)).callers[0]? =
          some (.finished (.error (s'.stage.cache.noLoaderFault (.number 7)))) ∧
        (s'.pass (client L)).stage.cache.entries.map Cache.Entry.value = [] := by
  refine ⟨⟨⟨_, rfl, by decide, rfl⟩, rfl, by decide⟩, by decide, ?_, by decide⟩
  rfl

end NodeKeeper.Getting
