import NodeKeeper.Proofs.Session.Course
import NodeKeeper.Session.Getting

/-!
# The conduct of those who get keys

A caller that gets a key touches the cache in its first turn only, when it asks for the key. Loads
are started there and nowhere else.

## Main definitions

* `Cache.askHistory` — what asking for a key adds to the history of a cache.
* `Getting.conduct` — the conduct of callers that get keys.
* `Getting.patient` — a loader to try runs with.

## Main results

* `Cache.course_request` — asking for a key is a course.
-/

namespace NodeKeeper

open Cache (Account Course Event History Step)

/-! ## Asking -/

namespace Cache

variable {κ ν τ : Type} [DecidableEq κ] [Add τ] [LE τ] [DecidableLE τ]

/-- What asking for a key adds to the history of a cache. -/
def askHistory (c : Cache κ ν τ) (now : τ) (k : κ) (canLoad : Bool) : History κ ν τ :=
  match (c.request now k canLoad).1 with
  | .started l => [.started l k, .asked k canLoad]
  | .hit _ | .joined _ | .noLoader => [.asked k canLoad]

/-- A load is started by asking for a key that shows nothing and has no shared load. -/
lemma started_mem_askHistory {c : Cache κ ν τ} {now : τ} {k j : κ} {canLoad : Bool} {l : Nat} :
    .started l j ∈ c.askHistory now k canLoad ↔
      j = k ∧ l = c.nextLoad ∧ canLoad = true ∧ (c.lookup now k).1 = none ∧
        c.flight? k = none := by
  unfold askHistory
  rcases c.request_cases now k canLoad with ⟨v, hl, hr⟩ | ⟨hl, ⟨id, hf, hr⟩ | ⟨hf, hr⟩⟩
  · simp [hr, hl]
  · simp [hr, hf]
  · cases canLoad with
    | true => simp [hr, hl, hf, and_comm]
    | false => simp [hr]

/-- Nothing is put by asking. -/
lemma put_not_mem_askHistory (c : Cache κ ν τ) (now : τ) (k j : κ) (canLoad : Bool) (v : ν)
    (t : τ) : .put j v t ∉ c.askHistory now k canLoad := by
  unfold askHistory
  split <;> simp

/-- Nothing is superseded by asking. -/
lemma supersedes_of_mem_askHistory {c : Cache κ ν τ} {now : τ} {k : κ} {canLoad : Bool}
    {e : Event κ ν τ} (he : e ∈ c.askHistory now k canLoad) (j : κ) : e.supersedes j = false := by
  unfold askHistory at he
  split at he
  · rcases List.mem_pair.1 he with rfl | rfl <;> rfl
  all_goals
    obtain rfl := List.mem_singleton.1 he
    rfl

/-- The accounts of the loads that are started by asking for a key. -/
def Access.accounts (k : κ) : Access ν → List (Account κ)
  | started _ => [⟨k, false⟩]
  | hit _ | joined _ | noLoader => []

/-- Asking is a course.

**Proof sketch.** A request that is answered, joins a load, or finds no loader asks for the key and
does nothing else. The only other one starts a load. -/
lemma course_request (c : Cache κ ν τ) (now : τ) (k : κ) (canLoad : Bool)
    (flights : List (Account κ)) :
    Course ⟨now, c, flights⟩ (c.askHistory now k canLoad)
      ⟨now, (c.request now k canLoad).2, flights ++ (c.request now k canLoad).1.accounts k⟩ := by
  unfold askHistory
  refine Course.single ?_
  rcases c.request_cases now k canLoad with ⟨v, hl, hr⟩ | ⟨hl, ⟨id, hf, hr⟩ | ⟨hf, hr⟩⟩
  · rw [hr, Access.accounts, List.append_nil]
    exact Step.ask (b := ⟨now, c, flights⟩) fun hn => by simp [hl] at hn
  · rw [hr, Access.accounts, List.append_nil]
    exact Step.ask (b := ⟨now, c, flights⟩) fun _ hn => by simp [hf] at hn
  · rw [hr]
    cases canLoad with
    | true => exact Step.start (b := ⟨now, c, flights⟩) hl hf
    | false =>
      simp only [Bool.false_eq_true, if_false, Access.accounts, List.append_nil]
      exact Step.ask (b := ⟨now, c, flights⟩) fun _ _ => rfl

end Cache

/-! ## Conduct -/

namespace Getting

variable {σ κ ν τ ℓ : Type} [Add τ] [LE τ] [DecidableLE τ] [DecidableEq κ] [Keylike κ]

/-- A caller that gets a key asks for it in its first turn, and leaves the cache alone otherwise. -/
def conduct (L : Loaders σ κ ν τ ℓ) : Session.Conduct (client L) where
  key := Request.key
  opening r st := st.cache.askHistory st.now r.key (L.canLoad r)
  resuming _ _ _ := []
  settling _ _ _ := []
  start_now r st := by
    simp only [client, begin, Stage.request]
    rcases st.cache.request st.now r.key (L.canLoad r) with ⟨_ | _ | _ | _, _⟩ <;> rfl
  start_course r st flights := by
    have hc := st.cache.course_request st.now r.key (L.canLoad r) flights
    simp only [client, begin, Stage.request]
    rcases hr : st.cache.request st.now r.key (L.canLoad r) with ⟨_ | _ | _ | _, _⟩
    all_goals
      simp only [hr] at hc
      exact hc
  resume_now _ _ _ := rfl
  resume_course _ _ st flights := by
    rw [client, Turn.accounts, List.append_nil]
    exact Course.refl
  settle_now _ _ _ := rfl
  settle_course _ _ _ _ := Course.refl
  call_ledger _ _ _ := rfl
  conclude_ledger _ _ _ _ := rfl

/-- A loader that answers once its gate opens. -/
def patient : Loaders Unit CacheKey Nat Float Unit := ⟨true, fun _ u => (.gate "slow", u)⟩

end Getting

end NodeKeeper
