import NodeKeeper.Proofs.Cache.Sole
import NodeKeeper.Proofs.Session.Gates
import NodeKeeper.Proofs.Session.Marks
import NodeKeeper.Proofs.Session.Mirror
import NodeKeeper.Proofs.Session.Results

/-!
# Sessions in which one key is asked for

From a session in which callers get keys everything can be struck out that is about other keys than
one: their callers, their loads, the calls for them, and what they have in the cache. What is left
is a session of its own. Its callers and loads go by their ranks among those of the key. A move that
is about the key, or about all keys, is made in both sessions, and a move about another key is not
noticed in the second one.

## Main definitions

* `Answer.only`, `Getting.Loaders.only` — answers, and loaders, that leave other keys alone.
* `Getting.Own`, `Getting.Other` — a caller of the key, found again; a caller of another key.
* `Getting.Sieved` — a session is what another one is without the other keys.

## Main results

* `Stage.Sole.play`, `Stage.Sole.endLoad` — an answer, and the end of a load, in both.
* `Getting.Sieved.marked_of_mem_loads`, `Getting.Sieved.renumber` — the marks of loads, and those of
  the loads that the cache has.
* `Getting.Sieved.grow` — a load starts.
* `Getting.Sieved.spawn`, `Getting.Sieved.cancel`, `Getting.Sieved.release`,
  `Getting.Sieved.deliver` — what happens in both.
* `Getting.Sieved.spawn_left`, `Getting.Sieved.cancel_left`, `Getting.Sieved.deliver_left` — what
  happens to other keys.

## Implementation notes

Whom a load has to answer and which turns are due is not compared: a load answers those who wait for
it in turns of their own, and a turn that is not due changes nothing.
-/

namespace NodeKeeper

/-! ## Answers -/

section Answers

variable {σ κ ν τ α ℓ : Type} [DecidableEq κ]

/-- An answer in which nothing is done about other keys. -/
def Answer.only (k : κ) (a : Answer κ ν τ α) : Answer κ ν τ α :=
  { a with edits := a.edits.filter fun e => e.touches k }

/-- A response in whose answer nothing is done about other keys. -/
def Response.only (k : κ) : Response κ ν τ α → Response κ ν τ α
  | now a => .now (a.only k)
  | gate name => .gate name

/-- A load in whose answer nothing is done about other keys. -/
def Progress.only (k : κ) : Progress κ ν τ α → Progress κ ν τ α
  | fresh => .fresh
  | held => .held
  | freed a => .freed (a.only k)
  | landed r => .landed r

/-- The same loaders, which do nothing about other keys while they are at work. -/
def Getting.Loaders.only (k : κ) (L : Loaders σ κ ν τ ℓ) : Loaders σ κ ν τ ℓ where
  hasDefault := L.hasDefault
  load job rest := ((L.load job rest).1.only k, (L.load job rest).2)

end Answers

/-! ## Stages -/

namespace Stage.Sole

variable {σ κ ν τ α : Type} [DecidableEq κ] [Keylike κ] [Add τ] [LE τ] [DecidableLE τ]
variable {k : κ} {ρ : Nat → Nat} {st st' : Stage σ κ ν τ}

/-- An answer for the key is played in both. -/
lemma play (H : st.Sole k ρ st') (a : Answer κ ν τ α) :
    (Session.play a st).Sole k ρ (Session.play (a.only k) st') := by
  refine foldl_apply ?_ a.edits
  simp only [Answer.only]
  cases a.took with
  | none => exact H
  | some d => exact ⟨congrArg (· + d) H.now, H.rest, H.cache⟩

/-- An answer for another key is played: its time passes, and what it does about the key remains.

**Proof sketch.** The clock is set to where the answer has taken it. Then the edits about the key
are made of both, by `foldl_apply`. -/
lemma play_left (H : st.Sole k ρ st') (a : Answer κ ν τ α) :
    (Session.play a st).Sole k ρ ((a.edits.filter fun e => e.touches k).foldl Stage.apply
      { st' with now := (Session.play a st).now }) := by
  let later := Session.play { a with edits := [] } st
  have hnow : (Session.play a st).now = later.now := now_foldl_apply a.edits later
  have hlater : later.Sole k ρ { st' with now := later.now } := by
    refine ⟨rfl, H.rest.trans ?_, ?_⟩
    · exact (Session.rest_play _ st).symm
    · simp only [later, Session.play]
      cases a.took <;> exact H.cache
  rw [hnow]
  exact hlater.foldl_apply a.edits

omit [Add τ] [LE τ] [DecidableLE τ] in
/-- A load of the key ends in both. -/
lemma endLoad (H : st.Sole k ρ st') (hc : st.cache.Coherent) {l : Nat}
    (hl : ∀ m ∈ st.cache.loads, m.id = l → m.key = k)
    (hinj : ∀ m ∈ st.cache.loads, m.key = k → (ρ m.id = ρ l ↔ m.id = l)) (r : Outcome ν) :
    (st.endLoad l r).Sole k ρ (st'.endLoad (ρ l) r) := by
  obtain ⟨hnow, hrest, hcache⟩ := st.endLoad_spec l r
  obtain ⟨hnow', hrest', hcache'⟩ := st'.endLoad_spec (ρ l) r
  refine ⟨hnow'.trans (H.now.trans hnow.symm), hrest'.trans (H.rest.trans hrest.symm), ?_⟩
  rw [hcache, hcache', H.now]
  exact H.cache.close hc hl hinj st.now r.toOption

omit [Add τ] [LE τ] [DecidableLE τ] in
/-- A load of another key ends. -/
lemma endLoad_left (H : st.Sole k ρ st') {l : Nat}
    (hl : ∀ m ∈ st.cache.loads, m.id = l → m.key ≠ k) (r : Outcome ν) :
    (st.endLoad l r).Sole k ρ st' := by
  obtain ⟨hnow, hrest, hcache⟩ := st.endLoad_spec l r
  refine ⟨H.now.trans hnow.symm, H.rest.trans hrest.symm, ?_⟩
  rw [hcache]
  exact H.cache.close_ne hl st.now r.toOption

end Stage.Sole

/-! ## Sieved sessions -/

namespace Getting

open Session (free play)

variable {σ κ ν τ ℓ : Type} [DecidableEq κ]

/-- A caller of the key, and how it is found again among those of the key alone. -/
inductive Own (k : κ) (ls : List Bool) : Caller κ ν τ ν (Request κ ℓ) (Request κ ℓ) →
    Caller κ ν τ ν (Request κ ℓ) (Request κ ℓ) → Prop
  | fresh {r : Request κ ℓ} (hr : r.key = k) : Own k ls (.fresh r) (.fresh r)
  | waiting {l : Nat} (hl : ls[l]? = some true) (r : Request κ ℓ) :
      Own k ls (.waiting l r) (.waiting (rank ls l) r)
  | answered (o : Outcome ν) (r : Request κ ℓ) : Own k ls (.answered o r) (.answered o r)
  | cancelled : Own k ls .cancelled .cancelled
  | finished (o : Outcome ν) : Own k ls (.finished o) (.finished o)

/-- A caller of another key. -/
inductive Other (k : κ) : Caller κ ν τ ν (Request κ ℓ) (Request κ ℓ) → Prop
  | fresh {r : Request κ ℓ} (hr : r.key ≠ k) : Other k (.fresh r)
  | waiting (l : Nat) (r : Request κ ℓ) : Other k (.waiting l r)
  | answered (o : Outcome ν) (r : Request κ ℓ) : Other k (.answered o r)
  | cancelled : Other k .cancelled
  | finished (o : Outcome ν) : Other k (.finished o)

/-- A load of the key, and how it is found again. -/
structure Flown (k : κ) (f f' : Flight κ ν τ ν (Request κ ℓ)) : Prop where
  key : f.job.key = k
  job : f'.job = f.job
  progress : f'.progress = f.progress.only k

/-- The turn of a load of the key, as it is found again. -/
def found (ls : List Bool) : Task → Option Task
  | .load l => if ls[l]? = some true then some (.load (rank ls l)) else none
  | .caller _ | .deliver _ _ => none

/-- The second session is what the first one is without the other keys: of the callers and of the
loads those are left that are marked. -/
structure Sieved (k : κ) (bs ls : List Bool)
    (s s' : Session σ κ ν τ ν (Request κ ℓ) (Request κ ℓ)) : Prop where
  stage : s.stage.Sole k (rank ls) s'.stage
  callers : Sifted (Other k) (Own k ls) bs s.callers s'.callers
  flights : Sifted (fun f => f.job.key ≠ k) (Flown k) ls s.flights s'.flights
  gates : ∀ gate, s'.waitingAt gate = (s.waitingAt gate).filterMap (found ls)
  /-- Only loads that were started wait at gates. -/
  known : ∀ gate l, .load l ∈ s.waitingAt gate → l < ls.length
  calls : s'.calls = s.calls.filter fun r => r.key = k

namespace Sieved

variable {k : κ} {bs ls : List Bool} {s s' : Session σ κ ν τ ν (Request κ ℓ) (Request κ ℓ)}

/-- The loads of the key are marked. -/
lemma marked_iff (H : Sieved k bs ls s s') (l : Nat) :
    ls[l]? = some true ↔ ∃ f, s.flights[l]? = some f ∧ f.job.key = k := by
  constructor
  · intro hl
    obtain ⟨f, f', hf, -, hff⟩ := H.flights.exists_of_marked hl
    exact ⟨f, hf, hff.key⟩
  · rintro ⟨f, hf, hkey⟩
    by_contra hl
    exact H.flights.of_unmarked hl hf hkey

/-- No caller sees to a job of its own. -/
lemma not_held (H : Sieved k bs ls s s') (c : Nat) (job phase : Request κ ℓ) :
    s.callers[c]? ≠ some (.held job phase) := by
  intro hc
  by_cases hb : bs[c]? = some true
  · obtain ⟨x, _, hx, -, hown⟩ := H.callers.exists_of_marked hb
    obtain rfl := Option.some.inj (hx.symm.trans hc)
    cases hown
  · cases H.callers.of_unmarked hb hc

/-! ### Loads and their marks -/

/-- A load that starts has the next number. -/
lemma nextLoad_eq (H : Sieved k bs ls s s') (hv : (s.ledger Request.key).Valid) :
    s.stage.cache.nextLoad = ls.length :=
  (Session.nextLoad_eq hv).trans H.flights.length_marks.symm

/-- A load that may start gets the next mark, and all others keep their ranks. -/
lemma renumber (H : Sieved k bs ls s s') (hv : (s.ledger Request.key).Valid) (b : Bool) :
    s.stage.cache.Sole k (rank (ls ++ [b])) s'.stage.cache ∧
      rank (ls ++ [b]) (s.stage.cache.nextLoad + 1) =
        rank (ls ++ [b]) s.stage.cache.nextLoad + b.toNat := by
  have hnext := H.nextLoad_eq hv
  refine ⟨H.stage.cache.renumber hv.coherent fun l hl => rank_append (hnext ▸ hl) [b], ?_⟩
  rw [hnext, rank_concat, rank_append (Nat.le_refl _)]

/-- The cache has a load only for a flight of the same key. -/
lemma marked_of_mem_loads (H : Sieved k bs ls s s') {st : Stage σ κ ν τ}
    (hv : (st.ledger (s.flights.map (Flight.account Request.key))).Valid) {m : Cache.Load κ}
    (hm : m ∈ st.cache.loads) : ls[m.id]? = some true ↔ m.key = k := by
  have haccount := (hv.mem_loads_iff m.id m.key).1 ⟨m, hm, rfl, rfl⟩
  obtain ⟨f, hf, ha⟩ := Option.map_eq_some_iff.1 ((List.getElem?_map ..).symm.trans haccount)
  have hkey : f.job.key = m.key := congrArg Cache.Account.key ha
  rw [H.marked_iff, ← hkey]
  constructor
  · rintro ⟨f', hf', hkey'⟩
    rwa [← Option.some.inj (hf'.symm.trans hf)]
  · exact fun hk => ⟨f, hf, hk⟩

/-! ### Parts of moves -/

/-- A stage, and one that has the key alone of it, can be put into the two sessions. -/
lemma setStage (H : Sieved k bs ls s s') {stage stage' : Stage σ κ ν τ}
    (hst : stage.Sole k (rank ls) stage') :
    Sieved k bs ls { s with stage } { s' with stage := stage' } :=
  { H with stage := hst }

/-- A cache, and one that has the key alone of it, can be put into the two sessions. -/
lemma setCache (H : Sieved k bs ls s s') {cache cache' : Cache κ ν τ}
    (hc : cache.Sole k (rank ls) cache') :
    Sieved k bs ls { s with stage := { s.stage with cache } }
      { s' with stage := { s'.stage with cache := cache' } } :=
  { H with stage := ⟨H.stage.now, H.stage.rest, hc⟩ }

/-- Which turns are due is not compared. -/
lemma setQueue (H : Sieved k bs ls s s') (queue queue' : List Task) :
    Sieved k bs ls { s with queue } { s' with queue := queue' } :=
  ⟨H.stage, H.callers, H.flights, H.gates, H.known, H.calls⟩

/-- A caller of the key can be set in both sessions, in the second one at its rank. -/
lemma setCaller (H : Sieved k bs ls s s') {c : Nat} (hc : bs[c]? = some true)
    {x x' : Caller κ ν τ ν (Request κ ℓ) (Request κ ℓ)} (hx : Own k ls x x') :
    Sieved k bs ls (s.setCaller c x) (s'.setCaller (rank bs c) x') :=
  { H with callers := H.callers.set hc hx }

/-- A caller of another key can be set in the first session alone. -/
lemma setCaller_left (H : Sieved k bs ls s s') {c : Nat} (hc : bs[c]? ≠ some true)
    {x : Caller κ ν τ ν (Request κ ℓ) (Request κ ℓ)} (hx : Other k x) :
    Sieved k bs ls (s.setCaller c x) s' :=
  { H with callers := H.callers.set_left hc hx }

/-- A load of the key can be moved on in both sessions, in the second one at its rank. -/
lemma setProgress (H : Sieved k bs ls s s') {l : Nat} (hl : ls[l]? = some true)
    {p p' : Progress κ ν τ ν} (hp : p' = p.only k) :
    Sieved k bs ls (s.setProgress l p) (s'.setProgress (rank ls l) p') :=
  { H with flights := H.flights.modify hl fun _ _ hff => ⟨hff.key, hff.job, hp⟩ }

/-- A load of another key can be moved on in the first session alone. -/
lemma setProgress_left (H : Sieved k bs ls s s') {l : Nat} (hl : ls[l]? ≠ some true)
    (p : Progress κ ν τ ν) : Sieved k bs ls (s.setProgress l p) s' :=
  { H with flights := H.flights.modify_left hl fun _ hf => hf }

/-- A caller of the key can join a load of the key in both sessions. -/
lemma join (H : Sieved k bs ls s s') {c l : Nat} (hc : bs[c]? = some true)
    (hl : ls[l]? = some true) (r : Request κ ℓ) :
    Sieved k bs ls (s.join l c r) (s'.join (rank ls l) (rank bs c) r) :=
  { H with
    flights := H.flights.modify hl fun _ _ hff => ⟨hff.key, hff.job, hff.progress⟩
    callers := H.callers.set hc (.waiting hl r) }

/-- A caller of another key can join a load of another key in the first session alone. -/
lemma join_left (H : Sieved k bs ls s s') {c l : Nat} (hc : bs[c]? ≠ some true)
    (hl : ls[l]? ≠ some true) (r : Request κ ℓ) : Sieved k bs ls (s.join l c r) s' :=
  { H with
    flights := H.flights.modify_left hl fun _ hf => hf
    callers := H.callers.set_left hc (.waiting l r) }

/-- A load of the key can be put to wait for an answer in both sessions.

**Proof sketch.** The load comes to wait at the same gate in both sessions, in the second one by its
rank. The other gates are left as they are. -/
lemma await (H : Sieved k bs ls s s') {l : Nat} (hl : ls[l]? = some true) (name : String) :
    Sieved k bs ls (s.await name (.load l)) (s'.await name (.load (rank ls l))) :=
  { H with
    gates := by
      intro gate
      rw [Session.waitingAt_await, Session.waitingAt_await]
      split
      · rw [H.gates, List.filterMap_append]
        simp [found, hl]
      · exact H.gates gate
    known := by
      intro gate m hm
      rw [Session.waitingAt_await] at hm
      split at hm
      · rcases List.mem_append.1 hm with hm | hm
        · exact H.known name m hm
        · obtain rfl : m = l := by simpa using hm
          exact (List.getElem?_eq_some_iff.1 hl).1
      · exact H.known gate m hm }

/-- A load of another key can be put to wait for an answer in the first session alone.

**Proof sketch.** The load comes to wait at the gate in the first session, but is not found again in
the second one, as it is not marked. -/
lemma await_left (H : Sieved k bs ls s s') {l : Nat} (hl : ls[l]? ≠ some true)
    (hlt : l < ls.length) (name : String) : Sieved k bs ls (s.await name (.load l)) s' :=
  { H with
    gates := by
      intro gate
      rw [Session.waitingAt_await, H.gates]
      split
      · next hg => simp [hg, found, hl]
      · rfl
    known := by
      intro gate m hm
      rw [Session.waitingAt_await] at hm
      split at hm
      · rcases List.mem_append.1 hm with hm | hm
        · exact H.known name m hm
        · obtain rfl : m = l := by simpa using hm
          exact hlt
      · exact H.known gate m hm }

/-- A load starts: it gets the next mark.

**Proof sketch.** The new load stands behind the others, so that the ranks of these do not change.
Hence callers wait for the same loads as before, and gates are found again as before. -/
lemma grow (H : Sieved k bs ls s s') {b : Bool} {cache cache' : Cache κ ν τ}
    (hc : cache.Sole k (rank (ls ++ [b])) cache')
    {fs fs' : List (Flight κ ν τ ν (Request κ ℓ))}
    (hfs : Sifted (fun f => f.job.key ≠ k) (Flown k) [b] fs fs') :
    Sieved k bs (ls ++ [b])
      { s with stage := { s.stage with cache }, flights := s.flights ++ fs }
      { s' with stage := { s'.stage with cache := cache' }, flights := s'.flights ++ fs' } where
  stage := ⟨H.stage.now, H.stage.rest, hc⟩
  callers := by
    refine H.callers.mono fun x x' hown => ?_
    cases hown with
    | fresh hr => exact .fresh hr
    | waiting hl r =>
      have hlt := (List.getElem?_eq_some_iff.1 hl).1
      rw [← rank_append (Nat.le_of_lt hlt) [b]]
      exact .waiting (by rw [List.getElem?_append_left hlt, hl]) r
    | answered o r => exact .answered o r
    | cancelled => exact .cancelled
    | finished o => exact .finished o
  flights := H.flights.append hfs
  gates := by
    intro gate
    refine (H.gates gate).trans (List.filterMap_congr fun t ht => ?_)
    cases t with
    | load l =>
      have hlt := H.known gate l ht
      simp only [found]
      rw [List.getElem?_append_left hlt, rank_append (Nat.le_of_lt hlt)]
    | caller _ | deliver _ _ => rfl
  known := by
    intro gate l hl
    have hlt := H.known gate l hl
    rw [List.length_append]
    omega
  calls := H.calls

/-! ### From outside -/

/-- A new caller of the key comes to both sessions, and is marked. -/
lemma spawn (H : Sieved k bs ls s s') {r : Request κ ℓ} (hr : r.key = k) :
    Sieved k (bs ++ [true]) ls (s.spawn r).2 (s'.spawn r).2 := by
  have hcallers : Sieved k (bs ++ [true]) ls { s with callers := s.callers ++ [.fresh r] }
      { s' with callers := s'.callers ++ [.fresh r] } :=
    { H with callers := H.callers.append (.keep (.fresh hr) .nil) }
  exact hcallers.setQueue _ _

/-- A new caller of another key comes to the first session alone, and is not marked. -/
lemma spawn_left (H : Sieved k bs ls s s') {r : Request κ ℓ} (hr : r.key ≠ k) :
    Sieved k (bs ++ [false]) ls (s.spawn r).2 s' := by
  have hcallers : Sieved k (bs ++ [false]) ls { s with callers := s.callers ++ [.fresh r] } s' :=
    { H with
      callers := by
        have happend := H.callers.append (Sifted.drop (Other.fresh hr) .nil)
        rwa [List.append_nil] at happend }
  exact hcallers.setQueue _ _

/-- A caller of the key can be cancelled in both sessions. -/
lemma cancel (H : Sieved k bs ls s s') {c : Nat} (hc : bs[c]? = some true) :
    Sieved k bs ls (s.cancel c).2 (s'.cancel (rank bs c)).2 := by
  obtain ⟨x, x', hx, hx', hown⟩ := H.callers.exists_of_marked hc
  simp only [Session.cancel, hx, hx']
  cases hown with
  | waiting _ _ => exact (H.setCaller hc .cancelled).setQueue _ _
  | fresh _ | answered _ _ => exact H.setCaller hc .cancelled
  | cancelled | finished _ => exact H

/-- A caller of another key can be cancelled in the first session alone. -/
lemma cancel_left (H : Sieved k bs ls s s') {c : Nat} (hc : bs[c]? ≠ some true) :
    Sieved k bs ls (s.cancel c).2 s' := by
  unfold Session.cancel
  split
  · exact (H.setCaller_left hc .cancelled).setQueue _ _
  · exact (H.setCaller_left hc .cancelled).setQueue _ _
  · exact H.setCaller_left hc .cancelled
  · exact H.setCaller_left hc .cancelled
  · exact H.setCaller_left hc .cancelled
  all_goals exact H

/-- One of those who wait at a gate is freed; in the second session too, if it is found there.

**Proof sketch.** Callers are never held, since they leave their jobs to loads. A load is held in
both sessions or in neither if it is marked; if it is not, it is freed in the first one alone. -/
lemma free (H : Sieved k bs ls s s') (a : Answer κ ν τ ν) (t : Task) :
    Sieved k bs ls (Session.free a s t)
      ((found ls t).toList.foldl (Session.free (a.only k)) s') := by
  cases t with
  | caller c =>
    simp only [found, Option.toList_none, List.foldl_nil, Session.free]
    split
    · next hc => exact absurd hc (H.not_held c _ _)
    · exact H
  | deliver l c => exact H
  | load l =>
    by_cases hl : ls[l]? = some true
    · obtain ⟨f, f', hf, hf', hff⟩ := H.flights.exists_of_marked hl
      simp only [found, hl, if_true, Option.toList_some, List.foldl_cons, List.foldl_nil,
        Session.free, hf, hf', Option.map_some, hff.progress]
      cases f.progress with
      | held => exact (H.setProgress hl rfl).setQueue _ _
      | fresh | freed _ | landed _ => exact H
    · simp only [found, hl, if_false, Option.toList_none, List.foldl_nil, Session.free]
      split
      · exact (H.setProgress_left hl _).setQueue _ _
      · exact H

/-- **A gate opens** in both.

**Proof sketch.** Induction on those who wait at the gate, with `free` for each of them. In the
second session those are found again that are marked. The gate is empty in both afterwards. -/
theorem release (H : Sieved k bs ls s s') (gate : String) (a : Answer κ ν τ ν) :
    Sieved k bs ls (s.release gate a).2 (s'.release gate (a.only k)).2 := by
  have hfold (ts : List Task) {s s' : Session σ κ ν τ ν (Request κ ℓ) (Request κ ℓ)}
      (H : Sieved k bs ls s s') : Sieved k bs ls (ts.foldl (Session.free a) s)
        ((ts.filterMap (found ls)).foldl (Session.free (a.only k)) s') := by
    induction ts generalizing s s' with
    | nil => exact H
    | cons t ts ih =>
      have hnext := ih (H.free a t)
      cases ht : found ls t with
      | none => simpa [ht] using hnext
      | some t' => simpa [ht] using hnext
  rw [Session.release_eq, Session.release_eq, H.gates]
  refine hfold _ { H with gates := fun other => ?_, known := fun other l hl => ?_ }
  · rw [Session.waitingAt_filter_ne, Session.waitingAt_filter_ne, H.gates]
    split <;> simp
  · rw [Session.waitingAt_filter_ne] at hl
    split at hl
    · exact absurd hl List.not_mem_nil
    · exact H.known other l hl

/-! ### Deliveries -/

/-- A load of the key answers a caller of the key in both.

**Proof sketch.** The load has landed in both sessions or in neither. The caller waits for it in
both or in neither, as ranks tell marked loads apart. -/
lemma deliver (H : Sieved k bs ls s s') {l c : Nat} (hl : ls[l]? = some true)
    (hc : bs[c]? = some true) :
    Sieved k bs ls (s.deliver l c) (s'.deliver (rank ls l) (rank bs c)) := by
  obtain ⟨f, f', hf, hf', hff⟩ := H.flights.exists_of_marked hl
  obtain ⟨x, x', hx, hx', hown⟩ := H.callers.exists_of_marked hc
  simp only [Session.deliver, hf, hf', hx, hx', Option.map_some, hff.progress]
  cases f.progress with
  | fresh | held | freed _ => exact H
  | landed r =>
    cases hown with
    | waiting hm phase =>
      simp only [Progress.only, rank_inj hm hl]
      split
      · exact (H.setCaller hc (.answered _ phase)).setQueue _ _
      · exact H
    | fresh _ | answered _ _ | cancelled | finished _ => exact H

/-- A load answers a caller, and one of them is not of the key.

**Proof sketch.** If the caller is not of the key, it is answered in the first session alone. If it
is, it waits for a load of the key, and not for this one. -/
lemma deliver_left (H : Sieved k bs ls s s') {l c : Nat}
    (h : ¬ (ls[l]? = some true ∧ bs[c]? = some true)) : Sieved k bs ls (s.deliver l c) s' := by
  unfold Session.deliver
  split
  · next r m phase _ hx =>
    split
    · next hml =>
      subst hml
      by_cases hc : bs[c]? = some true
      · -- a caller of the key waits for loads of the key alone
        obtain ⟨x, x', hx', -, hown⟩ := H.callers.exists_of_marked hc
        obtain rfl := Option.some.inj (hx'.symm.trans hx)
        cases hown with
        | waiting hm _ => exact absurd ⟨hm, hc⟩ h
      · exact (H.setCaller_left hc (.answered _ phase)).setQueue _ _
    · exact H
  · exact H

end Sieved

end Getting

end NodeKeeper
