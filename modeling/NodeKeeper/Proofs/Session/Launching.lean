import NodeKeeper.Proofs.Session.Calls
import NodeKeeper.Proofs.Session.Origin

/-!
# Loads that are started anew

A key of which the cache has nothing stays lacking until it is put or loaded. A caller that asks for
it starts a load, and the job of this load is called for in the first turn of the load, which is due
from then on and comes in the next pass at the latest.

## Main definitions

* `Session.Launches` — the first turn of a caller starts a load, whose job will be called for.

## Main results

* `Session.lacks_after` — a run brings nothing of a key that is lacking, unless it is put or loaded.
* `Session.calls_prefix_after` — calls that were made stay made.
* `Session.launches_of_wait` — a caller that decides to start a load launches it.
-/

namespace NodeKeeper.Session

variable {σ κ ν τ α φ δ : Type} [DecidableEq κ] [Keylike κ] [Add τ] [LE τ] [DecidableLE τ]
  {C : Client σ κ ν τ α φ δ} {s : Session σ κ ν τ α φ δ}

/-- A run brings nothing of a key that is lacking, unless it is put, or a load of it is started. -/
lemma lacks_after (K : Conduct C) {k : κ} (hv : (s.ledger K.key).Valid)
    (hk : s.stage.cache.Lacks k) {ms : List (Move σ κ ν τ α φ)}
    (hput : ∀ v t, .put k v t ∉ history K s ms) (hstart : ∀ l, .started l k ∉ history K s ms) :
    (s.after C ms).stage.cache.Lacks k :=
  Cache.Lacks.drift (b := s.ledger K.key) hk hv (drift_after K s ms) hput hstart

/-! ## Calls -/

/-- A caller that goes on adds to the calls, and takes none away. -/
lemma calls_prefix_follow (c : Nat) (next : Turn ν φ δ) :
    s.calls <+: (s.follow C c next).calls := by
  by_cases hn : ∃ job phase, next = .errand job phase
  · obtain ⟨job, phase, rfl⟩ := hn
    rw [calls_follow_errand]
    exact List.prefix_append _ _
  · have hcalls := calls_follow (C := C) (s := s) c fun job phase h => hn ⟨job, phase, h⟩
    exact hcalls.symm ▸ List.prefix_rfl

/-- Calls that were made stay made.

**Proof sketch.** Only the turns of callers and loads call. In each of them at most one job is added
at the end. -/
lemma calls_prefix_move (m : Move σ κ ν τ α φ) : s.calls <+: (s.move C m).calls := by
  by_cases hcaller : ∃ c, m = .turn (.caller c)
  · obtain ⟨c, rfl⟩ := hcaller
    have hfollow (stage : Stage σ κ ν τ) (next : Turn ν φ δ) :
        s.calls <+: (({ s with stage } : Session _ _ _ _ _ _ _).follow C c next).calls :=
      calls_prefix_follow (s := { s with stage }) c next
    simp only [move, turn, turnCaller]
    split
    · exact hfollow _ _
    · exact hfollow _ _
    · exact List.prefix_rfl
    · exact List.prefix_rfl
    · exact List.prefix_rfl
  · by_cases hload : ∃ l, m = .turn (.load l)
    · obtain ⟨l, rfl⟩ := hload
      rw [move, turn]
      rcases calls_turnLoad (C := C) (s := s) l with ⟨hcalls, -⟩ | ⟨job, hcalls, -⟩
      · exact hcalls.symm ▸ List.prefix_rfl
      · exact hcalls.symm ▸ List.prefix_append _ _
    · have hcalls := (calls_move (C := C) (s := s) (not_exists.1 hcaller) (not_exists.1 hload)).1
      exact hcalls.symm ▸ List.prefix_rfl

/-- A run adds to the calls, and takes none away. -/
lemma calls_prefix_after (ms : List (Move σ κ ν τ α φ)) : s.calls <+: (s.after C ms).calls := by
  induction ms generalizing s with
  | nil => exact List.prefix_rfl
  | cons m ms ih => exact (calls_prefix_move m).trans ih

section Fresh

variable {l : Nat} {f : Flight κ ν τ α δ}

/-- A load that has not had its first turn asks in it for what its job needs, whatever happens
before. -/
lemma asks_after (hf : s.flights[l]? = some f) (hp : f.progress = .fresh)
    {ms : List (Move σ κ ν τ α φ)} (hms : .turn (.load l) ∉ ms) :
    Asks C (s.after C ms) (.load l) f.job (s.after C ms).stage := by
  obtain ⟨f', hf', hcont⟩ := continued_after (C := C) (s := s) ms l f hf
  have hfresh : f'.progress = .fresh := by
    by_contra hne
    have hs (g) (hg : s.flights[l]? = some g) : g.progress = .fresh := by
      rwa [← Option.some.inj (hf.symm.trans hg)]
    obtain ⟨ms₁, ms₂, rfl, -⟩ := exists_asking hs hf' hne
    exact hms (List.mem_append_right _ List.mem_cons_self)
  exact hcont.job ▸ .load hf' hfresh

/-- A load whose first turn is due calls in the next pass.

**Proof sketch.** The pass takes the turns in the queue in their order. When that of the load is
due, it is still its first one, as no other turn is its own; and what is called before and after
stands before and after it. -/
lemma exists_calls_pass (hf : s.flights[l]? = some f) (hp : f.progress = .fresh)
    (hl : .load l ∈ s.queue) :
    ∃ before after, (s.pass C).calls = s.calls ++ before ++ f.job :: after := by
  obtain ⟨ts, ts', hqueue, hfirst⟩ := List.eq_append_cons_of_mem hl
  have hms : .turn (.load l) ∉ (.schedule [] :: ts.map .turn : List (Move σ κ ν τ α φ)) := by
    simpa using hfirst
  have hcalls := (asks_after (C := C) hf hp hms).calls_turn
  obtain ⟨before, hbefore⟩ := calls_prefix_after (C := C) (s := s) (.schedule [] :: ts.map .turn)
  obtain ⟨after, hafter⟩ := calls_prefix_after (C := C)
    (s := (s.after C (.schedule [] :: ts.map .turn)).turnLoad C l) (ts'.map .turn)
  have hpass : s.pass C =
      ((s.after C (.schedule [] :: ts.map .turn)).turnLoad C l).after C (ts'.map .turn) := by
    rw [pass_eq_after, hqueue, List.map_append, ← List.cons_append, after_append]
    rfl
  refine ⟨before, after, ?_⟩
  rw [turn] at hcalls
  rw [hpass, ← hafter, hcalls, ← hbefore]
  simp

end Fresh

/-! ## Launches -/

variable (C) in
/-- The first turn of a caller starts a load and waits for it. Nothing is called for in this turn;
but the first turn of the load is due, the client's call is evaluated for the job whenever it comes,
and it comes in the next pass. -/
structure Launches (s : Session σ κ ν τ α φ δ) (c : Nat) (job : δ) (phase : φ) : Prop where
  waiting : (s.turnCaller C c).callers[c]? = some (.waiting s.flights.length phase)
  silent : (s.turnCaller C c).calls = s.calls
  due : .load s.flights.length ∈ (s.turnCaller C c).queue
  /-- In its first turn, whatever happens before, the load asks for what the job needs. -/
  asks : ∀ ms, .turn (.load s.flights.length) ∉ ms →
    Asks C ((s.turnCaller C c).after C ms) (.load s.flights.length) job
      ((s.turnCaller C c).after C ms).stage
  calls : ∀ ms, .turn (.load s.flights.length) ∉ ms →
    (((s.turnCaller C c).after C ms).turnLoad C s.flights.length).calls =
      ((s.turnCaller C c).after C ms).calls ++ [job]
  pass : ∃ before after,
    ((s.turnCaller C c).pass C).calls = s.calls ++ before ++ job :: after

/-- A caller that decides to start a load is the first to join it. -/
lemma flights_turnCaller_of_wait {c : Nat} {p phase : φ} {job : δ}
    (hc : s.callers[c]? = some (.fresh p))
    (hn : (C.start p s.stage).1 = .wait s.flights.length (some job) phase) :
    (s.turnCaller C c).flights = s.flights ++ [⟨job, .fresh, [c]⟩] := by
  rw [turnCaller_of_fresh hc, hn]
  exact flights_startFlight_join (s := { s with stage := (C.start p s.stage).2 }) c job phase

/-- **A caller that decides to start a load** launches it.

**Proof sketch.** The caller starts the load and joins it, in a turn that calls nobody; the first
turn of the load is lined up. Whenever it is taken, the load asks for its job, by `asks_after`, and
in the next pass it is taken by `exists_calls_pass`. -/
theorem launches_of_wait {c : Nat} {p phase : φ} {job : δ} {st : Stage σ κ ν τ}
    (hc : s.callers[c]? = some (.fresh p))
    (hn : C.start p s.stage = (.wait s.flights.length (some job) phase, st)) :
    Launches C s c job phase := by
  have hturn : s.turnCaller C c =
      (({ s with stage := st } : Session _ _ _ _ _ _ _).startFlight s.flights.length job).join
        s.flights.length c phase := by
    rw [turnCaller_of_fresh hc, hn]
    rfl
  have hf : (s.turnCaller C c).flights[s.flights.length]? = some ⟨job, .fresh, [c]⟩ := by
    rw [flights_turnCaller_of_wait hc (congrArg Prod.fst hn)]
    exact List.getElem?_concat_length
  have hsilent : (s.turnCaller C c).calls = s.calls := by rw [hturn]; rfl
  have hdue : .load s.flights.length ∈ (s.turnCaller C c).queue := by
    rw [hturn]
    exact List.mem_append_right _ List.mem_cons_self
  obtain ⟨before, after, hpass⟩ := exists_calls_pass (C := C) hf rfl hdue
  have hasks (ms : List (Move σ κ ν τ α φ)) (hms : .turn (.load s.flights.length) ∉ ms) :
      Asks C ((s.turnCaller C c).after C ms) (.load s.flights.length) job
        ((s.turnCaller C c).after C ms).stage := asks_after hf rfl hms
  refine ⟨?_, hsilent, hdue, hasks, fun ms hms => (hasks ms hms).calls_turn, before, after, ?_⟩
  · rw [hturn]
    exact List.getElem?_set_self (List.getElem?_eq_some_iff.1 hc).1
  · rw [hpass, hsilent]

end NodeKeeper.Session
