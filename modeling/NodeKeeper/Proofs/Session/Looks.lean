import NodeKeeper.Proofs.Decimal.Order
import NodeKeeper.Proofs.Session.Blind
import NodeKeeper.Proofs.Session.Getting
import NodeKeeper.Proofs.Session.Valid

/-!
# Looks at a cache leave no trace

To look a key up, to ask whether it is visible, to list the visible keys and to count them: all this
drops entries that have expired. A session in which callers get keys takes the same course without
it, whether somebody looks between the turns or from inside a loader.

## Main definitions

* `Getting.Loaders.blind` — the same loaders, which do not look at the cache.

## Main results

* `Getting.looks_leave_no_trace` — two runs that differ in looks alone come to sessions that nobody
  can tell apart.
-/

namespace NodeKeeper.Getting

open Session (Forward Move blindRun opened play)

variable {σ κ ν τ ℓ : Type}

/-- The same loaders, which do not look at the cache while they are at work. -/
def Loaders.blind (L : Loaders σ κ ν τ ℓ) : Loaders σ κ ν τ ℓ where
  hasDefault := L.hasDefault
  load job rest := ((L.load job rest).1.blind, (L.load job rest).2)

variable [Add τ] [LE τ] [DecidableLE τ] [DecidableEq κ] [Keylike κ]

/-- Callers that get keys do the same with loaders that do not look at the cache.

**Proof sketch.** A request comes to the same in both, as the caches are alike; so does what is
decided by it. The loaders are called with the same world, and answer alike but for their looks. -/
lemma kept_blind [IsTrans τ (· ≤ ·)] (L : Loaders σ κ ν τ ℓ) :
    Mirror.blindTie.Kept (client L) (client L.blind) where
  start r st st' H := by
    obtain ⟨haccess, hstage⟩ := H.request r.key (L.canLoad r)
    have hname := hstage.cache.name
    rw [Mirror.blind_turn]
    change (begin L.blind r st').1 = (begin L r st).1 ∧
      Stage.Kindred (begin L r st).2 (begin L.blind r st').2
    rw [begin, begin, show L.blind.canLoad r = L.canLoad r from rfl]
    revert haccess hstage hname
    rcases st.request r.key (L.canLoad r) with ⟨access, st₁⟩
    rcases st'.request r.key (L.canLoad r) with ⟨access', st₁'⟩
    rintro rfl hstage hname
    cases access with
    | hit v => exact ⟨rfl, hstage⟩
    | joined l => exact ⟨rfl, hstage⟩
    | started l => exact ⟨rfl, hstage⟩
    | noLoader =>
      dsimp only at hname ⊢
      rw [Cache.noLoaderFault, Cache.noLoaderFault, hname]
      exact ⟨rfl, hstage⟩
  resume _ _ _ _ H := ⟨rfl, H⟩
  call job st st' H := by
    have hload : L.load job st.rest = L.load job st'.rest := by rw [H.rest]
    refine ⟨?_, H.now, congrArg Prod.snd hload, H.cache⟩
    exact congrArg (fun p => Response.blind p.1) hload.symm
  conclude _ _ _ _ H := ⟨(Mirror.blind_outcome _).symm, H⟩
  settle _ _ _ _ H := ⟨rfl, H⟩

/-- **Looks leave no trace.** In every state the looks at a cache agree with each other. Two runs
that differ in looks alone, those of the loaders included, come to sessions with the same callers,
results and loader calls, and every further look or request has the same answer in both, also one
from inside a loader.

**Proof sketch.** Without their looks the two runs are one run. Each of them takes the same course
as that one, since a look drops nothing but entries that have expired, and what has expired shows
nothing whether it was dropped or not. -/
theorem looks_leave_no_trace [IsTrans τ (· ≤ ·)] (now : τ) (ttl : Option τ) (name : String)
    (rest : σ) {L L' : Loaders σ κ ν τ ℓ} (hL : L.blind = L'.blind)
    {ms ms' : List (Move σ κ ν τ ν (Request κ ℓ))} (hms : blindRun ms = blindRun ms') :
    let s := (opened now ttl name rest).after (client L) ms
    let s' := (opened now ttl name rest).after (client L') ms'
    let blind : Mirror κ ν τ ν (Request κ ℓ) (Request κ ℓ) := Mirror.blind
    (s.stage.Consistent ∧ ∀ a : Answer κ ν τ ν, (play a s.stage).Consistent) ∧
      (Forward (client L) (opened now ttl name rest) ms →
        Forward (client L') (opened now ttl name rest) ms' ∧
          (∀ (c : Nat) r, s.callers[c]? = some (.finished r) ↔ s'.callers[c]? = some (.finished r)) ∧
          s.callers.map blind.caller = s'.callers.map blind.caller ∧
          s.flights.map blind.flight = s'.flights.map blind.flight ∧
          s.calls = s'.calls ∧ s.queue = s'.queue ∧ s.gates = s'.gates ∧
          s.stage.now = s'.stage.now ∧ s.stage.Agree s'.stage ∧
          ∀ a a' : Answer κ ν τ ν, a.blind = a'.blind →
            (s.stage.now = (play a s.stage).now ∨ s.stage.now ≤ (play a s.stage).now) →
            (play a s.stage).Agree (play a' s'.stage)) := by
  intro s s' blind
  refine ⟨?_, fun hf => ?_⟩
  · have hvalid : (s.ledger (conduct L).key).Valid :=
      Session.valid_after (conduct L) (Cache.Ledger.Valid.new now ttl name) ms
    exact ⟨Stage.consistent_of_coherent hvalid.coherent, fun a =>
      Stage.consistent_of_coherent (Session.valid_play a hvalid).coherent⟩
  · have hopened : Session.Mirrored Mirror.blindTie
        (opened now ttl name rest : Session σ κ ν τ ν (Request κ ℓ) (Request κ ℓ))
        (opened now ttl name rest) :=
      Session.Mirrored.blind_opened now ttl name rest
    obtain ⟨H, -, hf₀⟩ :=
      hopened.blind_after (kept_blind L) (conduct L) (conduct L.blind) ms (.inl hf)
    rw [hms, hL] at hf₀
    obtain ⟨H', hf', -⟩ :=
      hopened.blind_after (kept_blind L') (conduct L') (conduct L'.blind) ms' (.inr hf₀)
    rw [hms, hL] at H
    have hcallers : s.callers.map blind.caller = s'.callers.map blind.caller :=
      H.callers.symm.trans H'.callers
    have hcalls : s.calls = s'.calls := by
      rw [← List.map_id s.calls, ← List.map_id s'.calls]
      exact H.calls.symm.trans H'.calls
    refine ⟨hf', fun c r => ?_, hcallers, H.flights.symm.trans H'.flights,
      hcalls, H.queue.symm.trans H'.queue, H.gates.symm.trans H'.gates,
      H.stage.now.trans H'.stage.now.symm, H.stage.agree.trans H'.stage.agree.symm,
      fun a a' ha hle => ?_⟩
    · have hfinished (x : Caller κ ν τ ν (Request κ ℓ) (Request κ ℓ)) :
          blind.caller x = .finished r ↔ x = .finished r := by
        cases x <;> simp [Mirror.caller, blind]
      have hiff (xs : List (Caller κ ν τ ν (Request κ ℓ) (Request κ ℓ))) :
          (xs.map blind.caller)[c]? = some (.finished r) ↔ xs[c]? = some (.finished r) := by
        simp [hfinished]
      rw [← hiff, hcallers, hiff]
    · have hplay := H.stage.play a (.inl hle)
      have hle' := hle
      rw [hplay.now, H.stage.now, ha] at hle'
      have hplay' := H'.stage.play a' (.inr hle')
      rw [← ha] at hplay'
      exact hplay.agree.trans hplay'.agree.symm

/-- A value expires, all keys are dropped, and the key is loaded again. In the second run somebody
looks in between, once from inside the loader. Dropping all keys then finds no entry to supersede,
but nobody can tell.

**Proof sketch.** Both runs have the same moves but for looks, so that the theorem applies. The
generations show that they are not the same all the same, and the value that is shown is
computed. -/
theorem looks_leave_no_trace_expired :
    let s := opened 0 (some 1) "cache" ()
    let ms : List (Move Unit CacheKey Nat Float Nat (Request CacheKey Unit)) :=
      [.edit (.put (.number 7) 1), .elapse 2, .edit .invalidateAll, .spawn ⟨.number 7, none⟩,
        .turn (.caller 0), .turn (.load 0), .release "slow" ⟨some 1, [], .ok 5⟩, .turn (.load 0),
        .turn (.deliver 0 0), .turn (.caller 0)]
    let ms' : List (Move Unit CacheKey Nat Float Nat (Request CacheKey Unit)) :=
      [.edit (.put (.number 7) 1), .elapse 2, .edit (.lookup (.number 7)), .edit .invalidateAll,
        .spawn ⟨.number 7, none⟩, .turn (.caller 0), .turn (.load 0),
        .release "slow" ⟨some 1, [.keys], .ok 5⟩, .turn (.load 0), .turn (.deliver 0 0), .edit .keys,
        .turn (.caller 0)]
    Forward (client patient) s ms ∧ blindRun ms = blindRun ms' ∧
      (s.after (client patient) ms).stage.cache.generation (.number 7) = 2 ∧
      (s.after (client patient) ms').stage.cache.generation (.number 7) = 1 ∧
      ((s.after (client patient) ms').stage.lookup (.number 7)).1 = some 5 := by
  intro s ms ms'
  have hf : Forward (client patient) s ms := by decide +kernel
  have hms : blindRun ms = blindRun ms' := rfl
  refine ⟨hf, hms, by decide +kernel, by decide +kernel, ?_⟩
  obtain ⟨-, -, -, -, -, -, -, -, hagree, -⟩ :=
    (looks_leave_no_trace 0 (some 1) "cache" () (L := patient) rfl hms).2 hf
  rw [← hagree.lookup]
  decide +kernel

end NodeKeeper.Getting
