import NodeKeeper.Proofs.Cache.Generations
import NodeKeeper.Proofs.Session.Getting
import NodeKeeper.Proofs.Session.Origin

/-!
# The tables of a cache in use

While callers come and go and loads start and end, a loader may well touch the cache that it loads
for. At each instant at which anything can happen, before a turn and in the middle of one, the
tables of the cache agree with each other and with the loads that are on their way.

## Main definitions

* `Session.Agrees` — the tables of a cache agree with the loads of a session.

## Main results

* `Session.agrees_play` — they do whenever a loader is done with any part of what it does.
* `Session.closes_land` — what a load that lands does to the tables.
* `Getting.tables_agree` — all this in every run.

## Implementation notes

A turn of a load is not over at once: the loader does one thing after the other to the cache. Any
answer can be played before a turn, so that the cache that an answer leaves is the one that a loader
finds at any point of its work.
-/

namespace NodeKeeper

namespace Session

open Cache (Closes)

variable {σ κ ν τ α φ δ : Type} [DecidableEq κ]

/-- The tables of a cache agree with the loads of a session. -/
structure Agrees (key : δ → κ) (s : Session σ κ ν τ α φ δ) (c : Cache κ ν τ) : Prop where
  /-- No key has an entry and a shared load. -/
  apart : ∀ k, c.kept? k = none ∨ c.flight? k = none
  /-- The cache knows the loads that have not landed, and their keys. -/
  unfinished_iff : ∀ l k, (∃ load ∈ c.loads, load.id = l ∧ load.key = k) ↔
    ∃ f, s.flights[l]? = some f ∧ key f.job = k ∧ f.progress.hasLanded = false
  /-- It knows each of them once. -/
  load_eq : ∀ load ∈ c.loads, ∀ load' ∈ c.loads, load.id = load'.id → load = load'
  /-- The shared load of a key remembers the generation of the key. -/
  shared : ∀ k l, c.flight? k = some l → ⟨l, k, c.generation k⟩ ∈ c.loads
  /-- Every other load remembers an earlier one. -/
  earlier : ∀ load ∈ c.loads, c.flight? load.key ≠ some load.id →
    load.generation < c.generation load.key
  /-- Two loads of a key remember different ones. -/
  generation_ne : ∀ load ∈ c.loads, ∀ load' ∈ c.loads, load.key = load'.key → load ≠ load' →
    load.generation ≠ load'.generation
  /-- A load may install its value if and only if it is shared. -/
  generation_eq_iff : ∀ load ∈ c.loads,
    (c.generation load.key = load.generation ↔ c.flight? load.key = some load.id)

/-- In a valid ledger, the tables of the cache agree with the loads. -/
lemma agrees_of_valid {key : δ → κ} {s : Session σ κ ν τ α φ δ} {st : Stage σ κ ν τ}
    (H : (st.ledger (s.flights.map (Flight.account key))).Valid) : Agrees key s st.cache where
  apart := H.coherent.kept?_eq_none_or
  unfinished_iff l k := by
    have hlanded (f : Flight κ ν τ α δ) : f.account key = ⟨k, false⟩ ↔
        key f.job = k ∧ f.progress.hasLanded = false := by simp [Flight.account]
    rw [show (∃ load ∈ st.cache.loads, load.id = l ∧ load.key = k) ↔ _ from H.mem_loads_iff l k,
      Stage.ledger, List.getElem?_map, Option.map_eq_some_iff]
    exact exists_congr fun f => and_congr_right fun _ => hlanded f
  load_eq load hl load' hl' := H.coherent.load_eq hl hl'
  shared k l := H.coherent.mem_loads_of_flight?
  earlier load hl := H.coherent.generation_lt hl
  generation_ne load hl load' hl' hk hne hg :=
    hne (H.coherent.generation_unique load hl load' hl' hk hg)
  generation_eq_iff load hl := H.coherent.generation_eq_iff hl

variable [Keylike κ] [Add τ] [LE τ] [DecidableLE τ]

/-- **Whatever a loader has done so far**, the tables of the cache agree with the loads. -/
theorem agrees_play {key : δ → κ} {s : Session σ κ ν τ α φ δ} (H : (s.ledger key).Valid)
    (a : Answer κ ν τ α) : Agrees key s (play a s.stage).cache :=
  agrees_of_valid (valid_play a H)

variable {C : Client σ κ ν τ α φ δ} (K : Conduct C) {s : Session σ κ ν τ α φ δ}

/-- A load that lands leaves the tables alone but for its own places.

**Proof sketch.** The load is on the books, and to land it is to finish it, by `close_eq`. What this
does to the tables is `closes_finish`. -/
lemma closes_land (H : (s.ledger K.key).Valid) {l : Nat} {f : Flight κ ν τ α δ}
    (hf : s.flights[l]? = some f) (hp : f.progress.hasLanded = false) (a : Answer κ ν τ α) :
    Closes (play a s.stage).cache (play a s.stage).now l
      (C.conclude f.job a.outcome (play a s.stage)).1.toOption (s.land C l f a).stage.cache := by
  have hvalid := valid_play a H
  obtain ⟨load, hm, rfl, -, hclose⟩ := hvalid.close_eq (l := l) (k := K.key f.job)
    (by simp [Stage.ledger, hf, Flight.account, hp])
    (C.conclude f.job a.outcome (play a s.stage)).1.toOption
  have hcache : (s.land C load.id f a).stage.cache =
      ((play a s.stage).cache.finish (play a s.stage).now load _).2 :=
    (congrArg Cache.Ledger.cache (ledger_land K hf a)).trans hclose
  rw [hcache]
  exact hvalid.coherent.closes_finish hm _ _

end Session

namespace Getting

open Cache (Closes)
open Session (Agrees Move Obtains opened play)

variable {σ κ ν τ ℓ : Type} [Add τ] [LE τ] [DecidableLE τ] [DecidableEq κ] [Keylike κ]
variable (L : Loaders σ κ ν τ ℓ)

/-- A load finishes in a turn of its own, with the answer that it has obtained.

**Proof sketch.** By `flightStep_move` the move is the turn of the load, since nothing else lets one
land. By `loadTurn` it lands with an answer that comes at once or that was waiting, and
`closes_land` says how the cache is left. -/
lemma finishes_of_landed {s : Session σ κ ν τ ν (Request κ ℓ) (Request κ ℓ)}
    (H : (s.ledger Request.key).Valid) {m : Move σ κ ν τ ν (Request κ ℓ)} {l : Nat}
    {f f' : Flight κ ν τ ν (Request κ ℓ)} (hf : s.flights[l]? = some f)
    (hp : f.progress.hasLanded = false) (hf' : (s.move (client L) m).flights[l]? = some f')
    (hp' : f'.progress.hasLanded = true) :
    m = .turn (.load l) ∧ ∃ a, Obtains (client L) s f a ∧ f'.progress = .landed a.outcome ∧
      Closes (play a s.stage).cache (play a s.stage).now l a.outcome.toOption
        (s.move (client L) m).stage.cache := by
  obtain rfl : m = .turn (.load l) := by
    have hstep := Session.flightStep_move (C := client L) (s := s) l m
    rw [hf, hf'] at hstep
    generalize hx : some f = x at hstep
    cases hstep with
    | landed _ _ => rfl
    | same => exact absurd hp' (by simp [← Option.some.inj hx, hp])
    | joined c g => exact absurd hp' (by simp [← Option.some.inj hx, hp])
    | started _ _ _ | freed _ _ _ | held _ => exact absurd hp' (by simp [Progress.hasLanded])
  refine ⟨rfl, ?_⟩
  change (s.turnLoad (client L) l).flights[l]? = some f' at hf'
  change ∃ a, _ ∧ _ ∧ Closes _ _ _ _ (s.turnLoad (client L) l).stage.cache
  have hturn := Session.loadTurn (C := client L) (s := s) l
  generalize s.turnLoad (client L) l = s' at hturn hf'
  cases hturn with
  | idle =>
    obtain rfl := Option.some.inj (hf.symm.trans hf')
    exact absurd hp' (by simp [hp])
  | @asked g gate hg _ _ =>
    rw [Session.flights_setProgress_self (s := (s.ask (client L) g.job).2.await gate (.load l)) hg]
      at hf'
    obtain rfl := Option.some.inj hf'
    exact absurd hp' (by simp [Progress.hasLanded])
  | @answered g a hg hfresh ha =>
    obtain rfl := Option.some.inj (hf.symm.trans hg)
    rw [Session.flights_land (s := (s.ask (client L) f.job).2) hf] at hf'
    obtain rfl := Option.some.inj hf'
    refine ⟨a, Or.inl ⟨hfresh, ha⟩, rfl, ?_⟩
    have hcloses := Session.closes_land (conduct L) (s := (s.ask (client L) f.job).2) H hf hp a
    -- what asking does to the rest of the world is nothing to the cache
    rw [show (s.ask (client L) f.job).2.stage =
      { s.stage with rest := (s.ask (client L) f.job).2.stage.rest } from rfl,
      Session.play_with_rest] at hcloses
    exact hcloses
  | @freed g a hg hfreed =>
    obtain rfl := Option.some.inj (hf.symm.trans hg)
    rw [Session.flights_land hf] at hf'
    obtain rfl := Option.some.inj hf'
    exact ⟨a, Or.inr hfreed, rfl, Session.closes_land (conduct L) H hf hp a⟩

/-- **The tables of a cache agree** in every run, also while a loader is in the middle of what it
does to its own cache. Neither a loader nor a move decreases a generation, and loads keep the
generations that they remember. A load that finishes takes itself out of the table of shared loads,
if it is there, and never another one.

**Proof sketch.** The ledger is valid after every run, which makes the tables agree, also after an
answer was played. That generations do not decrease holds of all drifts, of moves and of answers
that are played alike. -/
theorem tables_agree (now : τ) (ttl : Option τ) (name : String) (rest : σ)
    (ms : List (Move σ κ ν τ ν (Request κ ℓ))) :
    let s := (opened now ttl name rest).after (client L) ms
    Agrees Request.key s s.stage.cache ∧
      (∀ a : Answer κ ν τ ν, Agrees Request.key s (play a s.stage).cache ∧
        (∀ k, s.stage.cache.generation k ≤ (play a s.stage).cache.generation k) ∧
        ∀ e k, (play a s.stage).cache.generation k ≤
          ((play a s.stage).apply e).cache.generation k) ∧
      ∀ m, let s' := s.move (client L) m
        (∀ k, s.stage.cache.generation k ≤ s'.stage.cache.generation k) ∧
        (∀ load ∈ s'.stage.cache.loads, load ∈ s.stage.cache.loads ∨
          s.flights.length ≤ load.id ∧ s.stage.cache.generation load.key ≤ load.generation) ∧
        ∀ l f f', s.flights[l]? = some f → f.progress.hasLanded = false →
          s'.flights[l]? = some f' → f'.progress.hasLanded = true →
            m = .turn (.load l) ∧ ∃ a, Obtains (client L) s f a ∧
              f'.progress = .landed a.outcome ∧
              Closes (play a s.stage).cache (play a s.stage).now l a.outcome.toOption
                s'.stage.cache := by
  intro s
  have H : (s.ledger Request.key).Valid :=
    Session.valid_after (conduct L) (Cache.Ledger.Valid.new now ttl name) ms
  refine ⟨Session.agrees_of_valid H, fun a => ⟨Session.agrees_play H a, fun k => ?_, fun e k => ?_⟩,
    fun m => ?_⟩
  · exact (Session.drift_play a s.stage _).generation_le H k
  · exact Cache.generation_le_apply _ e k
  · have hdrift := Session.drift_move (conduct L) s m
    refine ⟨hdrift.generation_le H, fun load hl => ?_, fun l f f' hf hp hf' hp' => ?_⟩
    · simpa [Session.ledger, Stage.ledger] using hdrift.captured H hl
    · exact finishes_of_landed L H hf hp hf' hp'

/-- Somebody gets a key, and the key is dropped while its load takes its time. Somebody else gets it
then, with a load of its own. The gate opens for both; the first load ends, and leaves the second
one where it is.

**Proof sketch.** The theorem says that the first load closes by itself, which leaves the shared
load and the entries as they are; what these are before is computed. -/
theorem tables_agree_superseded :
    let ms : List (Move Unit CacheKey Nat Float Nat (Request CacheKey Unit)) :=
      [.spawn ⟨.number 7, none⟩, .turn (.caller 0), .turn (.load 0),
        .edit (.invalidate (.number 7)), .spawn ⟨.number 7, none⟩, .turn (.caller 1),
        .turn (.load 1), .release "slow" ⟨none, [], .ok 1⟩]
    let s := (opened 0 (some 1) "cache" ()).after (client patient) ms
    let s' := s.move (client patient) (.turn (.load 0))
    s.stage.cache.loads = [⟨1, .number 7, 1⟩, ⟨0, .number 7, 0⟩] ∧
      s'.stage.cache.flight? (.number 7) = some 1 ∧ (s'.stage.cache.kept? (.number 7)).isNone := by
  intro ms s s'
  obtain ⟨-, -, hmoves⟩ := tables_agree patient 0 (some 1) "cache" () ms
  obtain ⟨-, -, hfinish⟩ := hmoves (.turn (.load 0))
  obtain ⟨-, a, ⟨hfresh, -⟩ | hfreed, -, hcloses⟩ :=
    hfinish 0 ⟨⟨.number 7, none⟩, .freed ⟨none, [], .ok 1⟩, [0]⟩
      ⟨⟨.number 7, none⟩, .landed (.ok 1), [0]⟩ rfl rfl rfl rfl
  · exact absurd hfresh (by simp)
  · obtain rfl := Progress.freed.inj hfreed
    exact ⟨by decide, (hcloses.flight?_eq _).trans (by decide),
      by rw [hcloses.kept?_eq]; decide⟩

end Getting

end NodeKeeper
