import NodeKeeper.Proofs.Decimal.Order
import NodeKeeper.Proofs.Session.Getting

/-!
# What callers get to see

Any number of callers get keys from one cache, in any order, some of them cancelled, while loads end
in another order than they were started in and others put and drop keys in between. What a key shows
depends on all this through the history of the run alone.

## Main results

* `Getting.lookup_eq_shown` — after every run, all ways to look at a key agree with the history.
* `Getting.finish_of_idle` — a load that was superseded or has failed ends without a trace.
-/

namespace NodeKeeper.Getting

open Cache (shown unsuperseded)
open Session (Forward Move history opened)

variable {σ κ ν τ ℓ : Type} [Add τ] [LE τ] [DecidableLE τ] [DecidableEq κ] [Keylike κ]

omit [Keylike κ] in
/-- A visible key is a hit for those who ask for it, and nothing else is.

**Proof sketch.** The cases are those of `Cache.request_cases`: only a key that shows something is a
hit. -/
lemma request_eq_hit_iff (st : Stage σ κ ν τ) (k : κ) (canLoad : Bool) (v : ν) :
    (st.request k canLoad).1 = .hit v ↔ (st.lookup k).1 = some v := by
  have hlookup : (st.lookup k).1 = (st.cache.lookup st.now k).1 := rfl
  have hrequest : (st.request k canLoad).1 = (st.cache.request st.now k canLoad).1 := rfl
  rw [hlookup, hrequest]
  rcases st.cache.request_cases st.now k canLoad with ⟨w, hl, hr⟩ | ⟨hl, ⟨id, -, hr⟩ | ⟨-, hr⟩⟩
  · rw [hl, hr]
    simp
  · rw [hl, hr]
    simp
  · rw [hl, hr]
    cases canLoad <;> simp

/-- A load that was superseded or has failed ends without a trace: every key shows what it would
have shown otherwise.

**Proof sketch.** What is shown is told by the history, before the end of the load and after it. An
end of a load that has failed, or that was superseded, settles no key, so that the same stands. -/
lemma finish_of_idle {st : Stage σ κ ν τ} {h : Cache.History κ ν τ}
    (H : Cache.Tells st.cache st.now h) {load : Cache.Load κ} (hl : load ∈ st.cache.loads)
    (r : Outcome ν) (hi : unsuperseded load.id load.key h = false ∨ r.toOption = none) (j : κ) :
    ((st.finish load r).lookup j).1 = (st.lookup j).1 := by
  have hledger := st.ledger_finish load r []
  simp only [Stage.ledger, Cache.Ledger.mk.injEq, and_true] at hledger
  obtain ⟨hnow, hcache⟩ := hledger
  have hended := (H.finish hl r.toOption).lookup_eq j
  have hsame : (st.cache.lookup st.now j).1 = _ := H.lookup_eq j
  change ((st.finish load r).cache.lookup (st.finish load r).now j).1 =
    (st.cache.lookup st.now j).1
  rw [hnow, hcache, hended, hsame, Cache.ttl_finish]
  -- the end of the load settles no key
  have hstanding : Cache.standing j (.ended load.id load.key r.toOption st.now :: h) =
      Cache.standing j h := by
    cases hr : r.toOption with
    | none => rfl
    | some v =>
      have hu : unsuperseded load.id load.key h = false := by simpa [hr] using hi
      rw [Cache.standing, if_neg]
      rintro ⟨rfl, hj⟩
      simp [hu] at hj
  rw [shown, shown, hstanding]

variable (L : Loaders σ κ ν τ ℓ)

/-- **What a key shows** is settled by the history of the run. All ways to look at a key agree, and
a load that was superseded or has failed does not change what any key shows.

**Proof sketch.** The history is sound after the run, so that a look shows what it says. A request
is answered at once with just what a look shows, the keys that are listed are those that show
something, and for loads that do not count `finish_of_idle` applies. -/
theorem lookup_eq_shown [IsTrans τ (· ≤ ·)] (now : τ) (ttl : Option τ) (name : String) (rest : σ)
    (ms : List (Move σ κ ν τ ν (Request κ ℓ)))
    (hf : Forward (client L) (opened now ttl name rest) ms) :
    let s := (opened now ttl name rest).after (client L) ms
    let h := history (conduct L) (opened now ttl name rest) ms
    (∀ k, (s.stage.lookup k).1 = shown ttl s.stage.now k h) ∧
      (∀ k canLoad v,
        (s.stage.request k canLoad).1 = .hit v ↔ shown ttl s.stage.now k h = some v) ∧
      (∀ k, k ∈ s.stage.keys.1 ↔ (shown ttl s.stage.now k h).isSome) ∧
      s.stage.keys.1.Nodup ∧
      ∀ load ∈ s.stage.cache.loads, ∀ r : Outcome ν,
        unsuperseded load.id load.key h = false ∨ r.toOption = none →
          ∀ k, ((s.stage.finish load r).lookup k).1 = (s.stage.lookup k).1 := by
  intro s h
  have H := (Session.sound_after (conduct L) now ttl name rest ms hf).tells
  have httl : s.stage.cache.ttl = ttl :=
    (Session.course_after (conduct L) (opened now ttl name rest) ms hf).ttl_eq
  have hlookup (k : κ) : (s.stage.lookup k).1 = shown ttl s.stage.now k h := by
    rw [← httl]
    exact H.lookup_eq k
  refine ⟨hlookup, fun k canLoad v => ?_, fun k => ?_, H.nodup_keys, fun load hl r hi k => ?_⟩
  · rw [request_eq_hit_iff, hlookup]
  · rw [← httl]
    exact H.mem_keys k
  · exact finish_of_idle H hl r hi k

/-- Somebody gets a key whose load takes its time. Another value is put meanwhile; the load answers
after that, and half a second later the key shows what was put.

**Proof sketch.** The clock goes forward in this run. What the history shows is found by evaluation,
and `lookup_eq_shown` says that the cache shows the same. -/
theorem lookup_eq_shown_superseded :
    let s := opened 0 (some 1) "cache" ()
    let ms : List (Move Unit CacheKey Nat Float Nat (Request CacheKey Unit)) :=
      [.spawn ⟨.number 7, none⟩, .turn (.caller 0), .turn (.load 0), .edit (.put (.number 7) 2),
        .release "slow" ⟨none, [], .ok 1⟩, .turn (.load 0), .elapse 0.5]
    Forward (client patient) s ms ∧
      ((s.after (client patient) ms).stage.lookup (.number 7)).1 = some 2 := by
  intro s ms
  have hf : Forward (client patient) s ms :=
    ⟨Or.inl rfl, Or.inl rfl, Or.inl rfl, Or.inl rfl, Or.inl rfl, Or.inl rfl, Or.inr (by decide),
      trivial⟩
  refine ⟨hf, ?_⟩
  rw [(lookup_eq_shown patient 0 (some 1) "cache" () ms hf).1]
  decide

end NodeKeeper.Getting
