import NodeKeeper.Proofs.Session.Sieve

/-!
# Keys are independent

From every run of a session in which callers get keys, all can be struck out that is about other
keys than one: their callers, with all that becomes of them, what is done about these keys from
outside, and their loads. What is left is a run in which nobody can tell that the other keys were
ever there: the callers of the key come to the same results, the same is asked for outside, and at
every point the cache shows the same of the key.

## Main definitions

* `Getting.sieve`, `Getting.sieveRun` — what is left of a move, and of a run.
* `Getting.marks` — the callers of the key in a run.
* `Stage.AgreeAt` — two caches in use show the same of a key.

## Main results

* `Getting.Sieved.turnCaller`, `Getting.Sieved.turnLoad` — the turns of the key, in both sessions.
* `Getting.Sieved.move`, `Getting.Sieved.after` — one move, and what is left of it; so for every
  run.
* `Getting.keys_independent` — a run, and what is left of it.

## Implementation notes

The turn of a load of another key takes time, and what its loader does about the key is done all the
same. It is struck out up to these: the clock is set, the world of the loaders is put where the load
left it, so that every load of the key still comes to the same, and what was done about the key
follows.
-/

namespace NodeKeeper

/-! ## What is seen of a key -/

section Seen

variable {σ κ ν τ : Type} [DecidableEq κ] [Add τ] [LE τ] [DecidableLE τ]

/-- Two caches in use show the same of a key, to whomever looks, and to whomever drops it. -/
structure Stage.AgreeAt (k : κ) (st st' : Stage σ κ ν τ) : Prop where
  now : st'.now = st.now
  lookup : (st'.lookup k).1 = (st.lookup k).1
  contains : (st'.contains k).1 = (st.contains k).1
  keys : k ∈ st'.keys.1 ↔ k ∈ st.keys.1
  dropped : (st'.cache.invalidate k).1 = (st.cache.invalidate k).1

/-- A stage that has one key alone of another one agrees with it at that key. -/
lemma Stage.Sole.agreeAt {k : κ} {ρ : Nat → Nat} {st st' : Stage σ κ ν τ} (H : st.Sole k ρ st') :
    st.AgreeAt k st' := by
  have hlookup : (st'.cache.lookup st'.now k).1 = (st.cache.lookup st.now k).1 := by
    rw [H.now]
    exact (H.cache.lookup st.now).1
  refine ⟨H.now, hlookup, congrArg Option.isSome hlookup, ?_, ?_⟩
  · change k ∈ (st'.cache.keys st'.now).1 ↔ k ∈ (st.cache.keys st.now).1
    rw [H.now]
    exact H.cache.mem_keys_iff st.now
  · exact congrArg Option.isSome H.cache.kept?

end Seen

namespace Getting

open Session (Move play)

variable {σ κ ν τ ℓ : Type} [Add τ] [LE τ] [DecidableLE τ] [DecidableEq κ] [Keylike κ]
variable {L : Loaders σ κ ν τ ℓ} {k : κ} {bs ls : List Bool}
variable {s s' : Session σ κ ν τ ν (Request κ ℓ) (Request κ ℓ)}

/-! ## Turns of callers -/

/-- What a caller decides in its first turn is decided by the cache. -/
lemma start_of_decided {r : Request κ ℓ} {st : Stage σ κ ν τ}
    {next : Turn ν (Request κ ℓ) (Request κ ℓ)} {cache : Cache κ ν τ}
    (h : Decided L r st next cache) : (client L).start r st = (next, { st with cache }) := by
  obtain ⟨next', cache', hstart, h'⟩ := start_spec L r st
  rw [hstart]
  cases h <;> cases h' <;> simp_all

namespace Sieved

/-- A caller of the key takes its first turn in both.

**Proof sketch.** Both caches show the same of the key, so that both callers decide the same. -/
lemma begin (H : Sieved k bs ls s s') (hv : (s.ledger Request.key).Valid) {c : Nat}
    (hc : bs[c]? = some true) {r : Request κ ℓ} (hr : r.key = k)
    (hx : s.callers[c]? = some (.fresh r)) (hx' : s'.callers[rank bs c]? = some (.fresh r)) :
    ∃ ls', Sieved k bs ls' (s.turnCaller (client L) c)
      (s'.turnCaller (client (L.only k)) (rank bs c)) := by
  subst hr
  obtain ⟨next, cache, hstart, hdecided⟩ := start_spec L r s.stage
  have hlookup : (s'.stage.cache.lookup s'.stage.now r.key).1 =
      (s.stage.cache.lookup s.stage.now r.key).1 := H.stage.agreeAt.lookup
  have hflight := H.stage.cache.flight?
  rw [Session.turnCaller_of_fresh hx, Session.turnCaller_of_fresh hx', hstart]
  cases hdecided with
  | shown hl =>
    have hdecided' : Decided (L.only r.key) r s'.stage _ _ := .shown (hlookup.trans hl)
    rw [start_of_decided hdecided']
    exact ⟨ls, H.setCaller hc (.finished _)⟩
  | joined hl hf =>
    rw [hf] at hflight
    have hdecided' : Decided (L.only r.key) r s'.stage _ _ := .joined (hlookup.trans hl) hflight
    have hshared := Session.exists_shared hv (Cache.mem_of_flight? hf)
    have hmarked := (H.marked_iff _).2 (hshared.imp fun _ h => ⟨h.1, h.2.1⟩)
    rw [start_of_decided hdecided']
    exact ⟨ls, (H.setCache H.stage.cache.dropEntry).join hc hmarked r⟩
  | refused hl hf hcan =>
    rw [hf] at hflight
    have hdecided' : Decided (L.only r.key) r s'.stage _ _ :=
      .refused (hlookup.trans hl) hflight hcan
    have hfault : s'.stage.cache.noLoaderFault r.key = s.stage.cache.noLoaderFault r.key := by
      rw [Cache.noLoaderFault, Cache.noLoaderFault, H.stage.cache.name]
    rw [start_of_decided hdecided', hfault]
    exact ⟨ls, (H.setCache H.stage.cache.dropEntry).setCaller hc (.finished _)⟩
  | started hl hf hcan =>
    rw [hf] at hflight
    have hdecided' : Decided (L.only r.key) r s'.stage _ _ :=
      .started (hlookup.trans hl) hflight hcan
    obtain ⟨hsole, hnumber⟩ := H.renumber hv true
    have hflown : Flown r.key (⟨r, .fresh, []⟩ : Flight κ ν τ ν (Request κ ℓ)) ⟨r, .fresh, []⟩ :=
      ⟨rfl, rfl, rfl⟩
    have hgrow := H.grow (hsole.dropEntry.startLoad hnumber) (.keep hflown .nil)
    have hlast : (ls ++ [true])[s.stage.cache.nextLoad]? = some true := by
      simp [H.nextLoad_eq hv]
    rw [start_of_decided hdecided', hsole.nextLoad]
    exact ⟨ls ++ [true], (hgrow.setQueue _ _).join hc hlast r⟩

/-- A caller of another key takes its first turn.

**Proof sketch.** What the request decides is about its own key. If it joins a load or starts one,
that is a load of its key, which is not marked; so nothing is done in the second session. -/
lemma begin_left (H : Sieved k bs ls s s') (hv : (s.ledger Request.key).Valid) {c : Nat}
    (hc : bs[c]? ≠ some true) {r : Request κ ℓ} (hr : r.key ≠ k)
    (hx : s.callers[c]? = some (.fresh r)) :
    ∃ ls', Sieved k bs ls' (s.turnCaller (client L) c) s' := by
  obtain ⟨next, cache, hstart, hdecided⟩ := start_spec L r s.stage
  rw [Session.turnCaller_of_fresh hx, hstart]
  cases hdecided with
  | shown hl => exact ⟨ls, H.setCaller_left hc (.finished _)⟩
  | joined hl hf =>
    obtain ⟨f, hflight, hkey, -⟩ := Session.exists_shared hv (Cache.mem_of_flight? hf)
    have hunmarked : ¬ ls[_]? = some true := fun hm => by
      obtain ⟨f', hflight', hkey'⟩ := (H.marked_iff _).1 hm
      obtain rfl := Option.some.inj (hflight.symm.trans hflight')
      exact hr (hkey.symm.trans hkey')
    exact ⟨ls, (H.setCache (H.stage.cache.dropEntry_ne hr)).join_left hc hunmarked r⟩
  | refused hl hf hcan =>
    exact ⟨ls, (H.setCache (H.stage.cache.dropEntry_ne hr)).setCaller_left hc (.finished _)⟩
  | started hl hf hcan =>
    obtain ⟨hsole, hnumber⟩ := H.renumber hv false
    have hother : Sifted (fun f => f.job.key ≠ k) (Flown k) [false]
        [(⟨r, .fresh, []⟩ : Flight κ ν τ ν (Request κ ℓ))] [] := .drop hr .nil
    have hgrow := H.grow ((hsole.dropEntry_ne hr).startLoad_ne hr hnumber) hother
    rw [List.append_nil] at hgrow
    have hlast : (ls ++ [false])[s.stage.cache.nextLoad]? ≠ some true := by
      simp [H.nextLoad_eq hv]
    exact ⟨ls ++ [false], (hgrow.setQueue _ s'.queue).join_left hc hlast r⟩

/-- **A caller of the key** takes a turn in both.

**Proof sketch.** The cases are those of the caller. Its first turn has a lemma of its own; an
answered caller relays its outcome, a cancelled one gives up, and any other one does nothing. -/
theorem turnCaller (H : Sieved k bs ls s s') (hv : (s.ledger Request.key).Valid) {c : Nat}
    (hc : bs[c]? = some true) :
    ∃ ls', Sieved k bs ls' (s.turnCaller (client L) c)
      (s'.turnCaller (client (L.only k)) (rank bs c)) := by
  obtain ⟨x, x', hx, hx', hown⟩ := H.callers.exists_of_marked hc
  cases hown with
  | fresh hr => exact H.begin hv hc hr hx hx'
  | answered o r =>
    rw [Session.turnCaller_of_answered hx, Session.turnCaller_of_answered hx']
    exact ⟨ls, H.setCaller hc (.finished o)⟩
  | cancelled =>
    simp only [Session.turnCaller, hx, hx']
    exact ⟨ls, H.setCaller hc (.finished _)⟩
  | waiting _ _ | finished _ =>
    simp only [Session.turnCaller, hx, hx']
    exact ⟨ls, H⟩

/-- **A caller of another key** takes a turn.

**Proof sketch.** The cases are those of the caller, and only the first session takes part. Its
first turn has a lemma of its own. -/
theorem turnCaller_left (H : Sieved k bs ls s s') (hv : (s.ledger Request.key).Valid) {c : Nat}
    (hc : bs[c]? ≠ some true) : ∃ ls', Sieved k bs ls' (s.turnCaller (client L) c) s' := by
  cases hx : s.callers[c]? with
  | none =>
    simp only [Session.turnCaller, hx]
    exact ⟨ls, H⟩
  | some x =>
    cases H.callers.of_unmarked hc hx with
    | fresh hr => exact H.begin_left hv hc hr hx
    | answered o r =>
      rw [Session.turnCaller_of_answered hx]
      exact ⟨ls, H.setCaller_left hc (.finished o)⟩
    | cancelled =>
      simp only [Session.turnCaller, hx]
      exact ⟨ls, H.setCaller_left hc (.finished _)⟩
    | waiting _ _ | finished _ =>
      simp only [Session.turnCaller, hx]
      exact ⟨ls, H⟩

/-! ## Turns of loads -/

/-- A job for the key is asked for outside in both.

**Proof sketch.** The loaders find the same world in both sessions, and the job is for the key, so
that the call is struck out of neither. -/
lemma ask (H : Sieved k bs ls s s') {job : Request κ ℓ} (hk : job.key = k) :
    (s'.ask (client (L.only k)) job).1 = (s.ask (client L) job).1.only k ∧
      Sieved k bs ls (s.ask (client L) job).2 (s'.ask (client (L.only k)) job).2 := by
  have hload : (L.only k).load job s'.stage.rest =
      ((L.load job s.stage.rest).1.only k, (L.load job s.stage.rest).2) := by
    rw [H.stage.rest]
    rfl
  have hrest : ((L.only k).load job s'.stage.rest).2 = (L.load job s.stage.rest).2 := by
    rw [hload]
  refine ⟨congrArg Prod.fst hload,
    { H with stage := ⟨H.stage.now, hrest, H.stage.cache⟩, calls := ?_ }⟩
  simp [Session.ask, H.calls, hk]

/-- A job for another key is asked for outside; the world of the loaders follows. -/
lemma ask_left (H : Sieved k bs ls s s') {job : Request κ ℓ} (hk : job.key ≠ k) :
    Sieved k bs ls (s.ask (client L) job).2
      { s' with stage := { s'.stage with rest := (s.ask (client L) job).2.stage.rest } } :=
  { H with
    stage := ⟨H.stage.now, rfl, H.stage.cache⟩
    calls := by simp [Session.ask, H.calls, hk] }

/-- A load of the key lands in both. -/
lemma land (H : Sieved k bs ls s s') (hv : (s.ledger Request.key).Valid) {l : Nat}
    (hl : ls[l]? = some true) (f f' : Flight κ ν τ ν (Request κ ℓ)) (a : Answer κ ν τ ν) :
    Sieved k bs ls (s.land (client L) l f a)
      (s'.land (client (L.only k)) (rank ls l) f' (a.only k)) := by
  have hplayed := Session.valid_play a hv
  have hend := (H.stage.play a).endLoad hplayed.coherent
    (fun m hm hid => (H.marked_of_mem_loads hplayed hm).1 (hid ▸ hl))
    (fun m hm hk => rank_inj ((H.marked_of_mem_loads hplayed hm).2 hk) hl) a.outcome
  rw [Session.Mirrored.land_eq, Session.Mirrored.land_eq]
  exact ((H.setStage hend).setProgress hl rfl).setQueue _ _

/-- A load of another key lands: its time passes, and what its loader does about the key remains.

**Proof sketch.** The answer is played in the first session, and in the second one those of its
edits that touch the key, after the same time. The load that ends is none of the key, so that its
end is not noticed there. -/
lemma land_left (H : Sieved k bs ls s s') (hv : (s.ledger Request.key).Valid) {l : Nat}
    (hl : ls[l]? ≠ some true) (f : Flight κ ν τ ν (Request κ ℓ)) (a : Answer κ ν τ ν) :
    Sieved k bs ls (s.land (client L) l f a)
      { s' with
        stage := (a.edits.filter fun e => e.touches k).foldl Stage.apply
          { s'.stage with
            now := (s.land (client L) l f a).stage.now
            rest := (s.land (client L) l f a).stage.rest } } := by
  have hplayed := Session.valid_play a hv
  have hend := (H.stage.play_left a).endLoad_left (l := l)
    (fun m hm hid hk => hl (hid ▸ (H.marked_of_mem_loads hplayed hm).2 hk)) a.outcome
  obtain ⟨hnow, hrest, -⟩ := (play a s.stage).endLoad_spec l a.outcome
  rw [Session.Mirrored.land_eq]
  dsimp only [client, Session.setProgress, Session.enqueueAll]
  rw [hnow, hrest, Session.rest_play, ← H.stage.rest]
  exact ((H.setStage hend).setProgress_left hl _).setQueue _ _

/-- **A load of the key** takes a turn in both.

**Proof sketch.** The load stands at the same point in both sessions, and calls for the same job.
The answers are the same up to edits that do not touch the key. -/
theorem turnLoad (H : Sieved k bs ls s s') (hv : (s.ledger Request.key).Valid) {l : Nat}
    (hl : ls[l]? = some true) :
    Sieved k bs ls (s.turnLoad (client L) l) (s'.turnLoad (client (L.only k)) (rank ls l)) := by
  obtain ⟨f, f', hf, hf', hff⟩ := H.flights.exists_of_marked hl
  simp only [Session.turnLoad, hf, hf', hff.progress, hff.job]
  cases hp : f.progress with
  | fresh =>
    obtain ⟨hresponse, hasked⟩ := H.ask (L := L) hff.key
    have hvalid : ((s.ask (client L) f.job).2.ledger Request.key).Valid := hv
    simp only [Progress.only]
    revert hresponse hasked hvalid
    rcases s.ask (client L) f.job with ⟨r, s₁⟩
    rcases s'.ask (client (L.only k)) f.job with ⟨r', s₁'⟩
    rintro rfl hasked hvalid
    cases r with
    | now a => exact hasked.land hvalid hl f f' a
    | gate name => exact (hasked.await hl name).setProgress hl rfl
  | freed a => exact H.land hv hl f f' a
  | held | landed _ => exact H

end Sieved

/-- What is done to the cache by the loader of a load in its turn. -/
def playedEdits (L : Loaders σ κ ν τ ℓ) (s : Session σ κ ν τ ν (Request κ ℓ) (Request κ ℓ))
    (l : Nat) : List (Edit κ ν) :=
  match s.flights[l]? with
  | none => []
  | some f =>
    match f.progress with
    | .fresh =>
      match (L.load f.job s.stage.rest).1 with
      | .now a => a.edits
      | .gate _ => []
    | .freed a => a.edits
    | .held | .landed _ => []

namespace Sieved

/-- **A load of another key** takes a turn: its time passes, the world of the loaders follows, and
what its loader does about the key remains.

**Proof sketch.** If the load lands, `land_left` applies. If it only calls, the world of the loaders
is changed, and the load is put to wait in the first session alone. If it does nothing, the second
session is left as it is. -/
theorem turnLoad_left (H : Sieved k bs ls s s') (hv : (s.ledger Request.key).Valid) {l : Nat}
    (hl : ls[l]? ≠ some true) :
    Sieved k bs ls (s.turnLoad (client L) l)
      { s' with
        stage := ((playedEdits L s l).filter fun e => e.touches k).foldl Stage.apply
          { s'.stage with
            now := (s.turnLoad (client L) l).stage.now
            rest := (s.turnLoad (client L) l).stage.rest } } := by
  have hidle : Sieved k bs ls s
      { s' with stage := { s'.stage with now := s.stage.now, rest := s.stage.rest } } :=
    { H with stage := ⟨rfl, rfl, H.stage.cache⟩ }
  cases hf : s.flights[l]? with
  | none =>
    simp only [Session.turnLoad, playedEdits, hf]
    exact hidle
  | some f =>
    have hk : f.job.key ≠ k := H.flights.of_unmarked hl hf
    have hlt : l < ls.length := by
      rw [H.flights.length_marks]
      exact (List.getElem?_eq_some_iff.1 hf).1
    simp only [Session.turnLoad, playedEdits, hf]
    cases hp : f.progress with
    | fresh =>
      have hasked := H.ask_left (L := L) hk
      have hvalid : ((s.ask (client L) f.job).2.ledger Request.key).Valid := hv
      have hnow : (s.ask (client L) f.job).2.stage.now = s.stage.now := rfl
      have hresponse : (L.load f.job s.stage.rest).1 = (s.ask (client L) f.job).1 := rfl
      rw [hresponse]
      revert hasked hvalid hnow
      rcases s.ask (client L) f.job with ⟨r, s₁⟩
      intro hasked hvalid hnow
      cases r with
      | now a => exact hasked.land_left hvalid hl f a
      | gate name =>
        have hheld := (hasked.await_left hl hlt name).setProgress_left hl .held
        exact { hheld with stage := ⟨rfl, rfl, hasked.stage.cache⟩ }
    | freed a => exact H.land_left hv hl f a
    | held | landed _ => exact hidle

end Sieved

/-! ## Runs -/

/-- The mark of a caller that comes in: whether it asks for the key. -/
def mark? (k : κ) : Move σ κ ν τ ν (Request κ ℓ) → Option Bool
  | .spawn r => some (decide (r.key = k))
  | _ => none

/-- The callers of a run, those marked that ask for the key. -/
def marks (k : κ) (ms : List (Move σ κ ν τ ν (Request κ ℓ))) : List Bool :=
  ms.filterMap (mark? k)

/-- The loads of a session, those of the key marked. -/
def loadMarks (k : κ) (s : Session σ κ ν τ ν (Request κ ℓ) (Request κ ℓ)) : List Bool :=
  s.flights.map fun f => decide (f.job.key = k)

/-- What is left of a move if all is struck out that is about other keys. The callers that are
marked are those of the key so far. -/
def sieve (L : Loaders σ κ ν τ ℓ) (k : κ) (bs : List Bool)
    (s : Session σ κ ν τ ν (Request κ ℓ) (Request κ ℓ)) :
    Move σ κ ν τ ν (Request κ ℓ) → List (Move σ κ ν τ ν (Request κ ℓ))
  | .spawn r => if r.key = k then [.spawn r] else []
  | .cancel c => if bs[c]? = some true then [.cancel (rank bs c)] else []
  | .release gate a => [.release gate (a.only k)]
  | .edit e => if e.touches k then [.edit e] else []
  | .elapse later => [.elapse later]
  | .stir f => [.stir f]
  | .schedule _ => []
  | .turn (.caller c) => if bs[c]? = some true then [.turn (.caller (rank bs c))] else []
  | .turn (.deliver l c) =>
    if (loadMarks k s)[l]? = some true ∧ bs[c]? = some true then
      [.turn (.deliver (rank (loadMarks k s) l) (rank bs c))]
    else []
  | .turn (.load l) =>
    if (loadMarks k s)[l]? = some true then [.turn (.load (rank (loadMarks k s) l))]
    else
      let stage := (s.turnLoad (client L) l).stage
      .elapse stage.now :: .stir (fun _ => stage.rest) ::
        ((playedEdits L s l).filter fun e => e.touches k).map .edit

/-- What is left of a run. -/
def sieveRun (L : Loaders σ κ ν τ ℓ) (k : κ) (bs : List Bool)
    (s : Session σ κ ν τ ν (Request κ ℓ) (Request κ ℓ)) :
    List (Move σ κ ν τ ν (Request κ ℓ)) → List (Move σ κ ν τ ν (Request κ ℓ))
  | [] => []
  | m :: ms =>
    sieve L k bs s m ++ sieveRun L k (bs ++ (mark? k m).toList) (s.move (client L) m) ms

omit [Add τ] [LE τ] [DecidableLE τ] [Keylike κ] in
/-- The marks of a run are those of its first move and those of the others. -/
lemma marks_cons (m : Move σ κ ν τ ν (Request κ ℓ)) (ms : List (Move σ κ ν τ ν (Request κ ℓ))) :
    marks k (m :: ms) = (mark? k m).toList ++ marks k ms := by
  unfold marks
  cases hm : mark? k m with
  | none => simp [hm]
  | some b => simp [hm]

/-- What is left of a longer run begins with what is left of the shorter one. -/
lemma sieveRun_append (before later : List (Move σ κ ν τ ν (Request κ ℓ))) :
    sieveRun L k bs s (before ++ later) = sieveRun L k bs s before ++
      sieveRun L k (bs ++ marks k before) (s.after (client L) before) later := by
  induction before generalizing bs s with
  | nil => simp [sieveRun, marks]
  | cons m ms ih =>
    rw [List.cons_append, sieveRun, sieveRun, ih, marks_cons, Session.after_cons, List.append_assoc,
      List.append_assoc]

/-- The move is not about another key. -/
def isAbout (k : κ) : Move σ κ ν τ ν (Request κ ℓ) → Bool
  | .spawn r => r.key = k
  | .edit e => e.touches k
  | .release _ a => a.edits.all fun e => e.touches k
  | .cancel _ | .elapse _ | .stir _ | .schedule _ | .turn _ => true

/-- The moves that are left of one move are about the key.

**Proof sketch.** The cases are those of the move. What is left of it is the move itself with its
places renumbered, or nothing; only of the turn of a load of another key the time, the world, and
its edits that touch the key are left. -/
lemma isAbout_of_mem_sieve {m m' : Move σ κ ν τ ν (Request κ ℓ)} (h : m' ∈ sieve L k bs s m) :
    isAbout k m' = true := by
  cases m with
  | spawn r =>
    obtain ⟨hr, rfl⟩ : r.key = k ∧ m' = .spawn r := by simpa [sieve] using h
    exact decide_eq_true hr
  | cancel c =>
    obtain ⟨-, rfl⟩ : bs[c]? = some true ∧ m' = .cancel (rank bs c) := by simpa [sieve] using h
    rfl
  | release gate a =>
    obtain rfl := List.mem_singleton.1 h
    simp [isAbout, Answer.only]
  | edit e =>
    obtain ⟨he, rfl⟩ : e.touches k = true ∧ m' = .edit e := by simpa [sieve] using h
    exact he
  | elapse _ | stir _ =>
    obtain rfl := List.mem_singleton.1 h
    rfl
  | schedule _ => exact absurd h List.not_mem_nil
  | turn t =>
    cases t with
    | caller c =>
      obtain ⟨-, rfl⟩ : bs[c]? = some true ∧ m' = .turn (.caller (rank bs c)) := by
        simpa [sieve] using h
      rfl
    | deliver l c =>
      obtain ⟨-, rfl⟩ : ((loadMarks k s)[l]? = some true ∧ bs[c]? = some true) ∧
          m' = .turn (.deliver (rank (loadMarks k s) l) (rank bs c)) := by simpa [sieve] using h
      rfl
    | load l =>
      simp only [sieve] at h
      split at h
      · obtain rfl := List.mem_singleton.1 h
        rfl
      · simp only [List.mem_cons, List.mem_map, List.mem_filter] at h
        obtain rfl | rfl | ⟨e, ⟨-, he⟩, rfl⟩ := h
        · rfl
        · rfl
        · exact he

/-- Nothing that is left of a run is about another key. -/
lemma isAbout_of_mem_sieveRun {ms : List (Move σ κ ν τ ν (Request κ ℓ))} :
    ∀ m ∈ sieveRun L k bs s ms, isAbout k m = true := by
  induction ms generalizing bs s with
  | nil => exact fun m hm => absurd hm List.not_mem_nil
  | cons m ms ih =>
    intro m' hm'
    rcases List.mem_append.1 hm' with h | h
    · exact isAbout_of_mem_sieve h
    · exact ih m' h

/-- Edits one after the other. -/
lemma after_edits (C : Client σ κ ν τ ν (Request κ ℓ) (Request κ ℓ)) (es : List (Edit κ ν)) :
    s.after C (es.map .edit) = { s with stage := es.foldl Stage.apply s.stage } := by
  induction es generalizing s with
  | nil => rfl
  | cons e es ih => exact ih

namespace Sieved

omit [Add τ] [LE τ] [DecidableLE τ] [Keylike κ] in
/-- The loads that are marked are those of the key, so that the marks can be read off the
session. -/
lemma loadMarks_eq (H : Sieved k bs ls s s') : loadMarks k s = ls :=
  (H.flights.marks_eq (fun _ hk => decide_eq_false hk)
    fun _ _ hff => decide_eq_true hff.key).symm

/-- **One move**, and what is left of it.

**Proof sketch.** The cases are those of the move. Each has two lemmas: one for callers, loads and
edits of the key, in which both sessions take part, and one for the others. -/
theorem move (H : Sieved k bs ls s s') (hv : (s.ledger Request.key).Valid)
    (m : Move σ κ ν τ ν (Request κ ℓ)) :
    ∃ ls', Sieved k (bs ++ (mark? k m).toList) ls' (s.move (client L) m)
      (s'.after (client (L.only k)) (sieve L k bs s m)) := by
  cases m with
  | spawn r =>
    by_cases hr : r.key = k
    · simp only [mark?, sieve, hr, decide_true, if_true]
      exact ⟨ls, H.spawn hr⟩
    · simp only [mark?, sieve, hr, decide_false, if_false]
      exact ⟨ls, H.spawn_left hr⟩
  | turn t =>
    simp only [mark?, Option.toList_none, List.append_nil]
    cases t with
    | caller c =>
      by_cases hc : bs[c]? = some true
      · simp only [sieve, hc, if_true]
        exact H.turnCaller hv hc
      · simp only [sieve, hc, if_false]
        exact H.turnCaller_left hv hc
    | deliver l c =>
      simp only [sieve, H.loadMarks_eq]
      split
      · next h => exact ⟨ls, H.deliver h.1 h.2⟩
      · next h => exact ⟨ls, H.deliver_left h⟩
    | load l =>
      simp only [sieve, H.loadMarks_eq]
      split
      · next hl => exact ⟨ls, H.turnLoad hv hl⟩
      · next hl =>
        rw [Session.after_cons, Session.after_cons, after_edits]
        exact ⟨ls, H.turnLoad_left hv hl⟩
  | cancel c =>
    simp only [mark?, Option.toList_none, List.append_nil]
    by_cases hc : bs[c]? = some true
    · simp only [sieve, hc, if_true]
      exact ⟨ls, H.cancel hc⟩
    · simp only [sieve, hc, if_false]
      exact ⟨ls, H.cancel_left hc⟩
  | edit e =>
    simp only [mark?, Option.toList_none, List.append_nil]
    cases he : e.touches k with
    | true =>
      simp only [sieve, he, if_true]
      exact ⟨ls, H.setStage (H.stage.apply he)⟩
    | false =>
      simp only [sieve, he, Bool.false_eq_true, if_false]
      exact ⟨ls, H.setStage (H.stage.apply_ne he)⟩
  | release gate a =>
    simp only [mark?, Option.toList_none, List.append_nil]
    exact ⟨ls, H.release gate a⟩
  | elapse later =>
    simp only [mark?, Option.toList_none, List.append_nil]
    exact ⟨ls, H.setStage ⟨rfl, H.stage.rest, H.stage.cache⟩⟩
  | stir f =>
    simp only [mark?, Option.toList_none, List.append_nil]
    exact ⟨ls, H.setStage ⟨H.stage.now, congrArg f H.stage.rest, H.stage.cache⟩⟩
  | schedule queue =>
    simp only [mark?, Option.toList_none, List.append_nil]
    exact ⟨ls, H.setQueue queue s'.queue⟩

/-- **A run**, and what is left of it.

**Proof sketch.** By induction on the run. The cache keeps its loads in step with the flights of the
session, so that each move finds what it needs. -/
theorem after (H : Sieved k bs ls s s') (hv : (s.ledger Request.key).Valid)
    (ms : List (Move σ κ ν τ ν (Request κ ℓ))) :
    ∃ ls', Sieved k (bs ++ marks k ms) ls' (s.after (client L) ms)
      (s'.after (client (L.only k)) (sieveRun L k bs s ms)) := by
  induction ms generalizing bs ls s s' with
  | nil =>
    rw [marks, List.filterMap_nil, List.append_nil]
    exact ⟨ls, H⟩
  | cons m ms ih =>
    obtain ⟨ls', hmove⟩ := H.move hv m
    rw [marks_cons, ← List.append_assoc, sieveRun, Session.after_append]
    exact ih hmove (Session.valid_move (conduct L) hv m)

omit [Add τ] [LE τ] [DecidableLE τ] [Keylike κ] in
/-- A session in which nothing has happened has nothing of any key. -/
lemma opened (k : κ) (now : τ) (ttl : Option τ) (name : String) (rest : σ) :
    Sieved k [] [] (Session.opened now ttl name rest :
      Session σ κ ν τ ν (Request κ ℓ) (Request κ ℓ)) (Session.opened now ttl name rest) where
  stage := ⟨rfl, rfl, .new k rfl ttl name⟩
  callers := .nil
  flights := .nil
  gates _ := rfl
  known _ _ h := absurd h List.not_mem_nil
  calls := rfl

end Sieved

/-- **Keys are independent.** From a run let all be struck out that is about other keys than one:
their callers with their turns and cancellations, what is done to these keys, and their loads, of
which only the time that passes remains, and what their loaders do about the key. At every point of
the run, the callers of the key have then come to the same results as in the whole run, the loaders
have been asked for the key by the same requests, and the cache shows the same of it, from inside a
loader as well.

**Proof sketch.** The session after what is left of the run is the one after the whole run, without
the other keys. This holds of every move: one about the key is made in both sessions, and one about
another key leaves the second session as it is. -/
theorem keys_independent (L : Loaders σ κ ν τ ℓ) (now : τ) (ttl : Option τ) (name : String)
    (rest : σ) (k : κ) (before later : List (Move σ κ ν τ ν (Request κ ℓ))) :
    let s₀ := Session.opened now ttl name rest
    let left := sieveRun L k [] s₀ before
    let s := s₀.after (client L) before
    let s' := s₀.after (client (L.only k)) left
    let bs := marks k before
    (∃ more, sieveRun L k [] s₀ (before ++ later) = left ++ more) ∧
      (∀ m ∈ left, isAbout k m = true) ∧
      (∀ f ∈ s'.flights, f.job.key = k) ∧
      s'.callers.length = bs.count true ∧
      (∀ c : Nat, bs[c]? = some true → ∀ r, s.callers[c]? = some (.finished r) ↔
        s'.callers[rank bs c]? = some (.finished r)) ∧
      s'.calls = s.calls.filter (fun r => r.key = k) ∧
      s.stage.AgreeAt k s'.stage ∧
      ∀ a : Answer κ ν τ ν, (play a s.stage).AgreeAt k (play (a.only k) s'.stage) := by
  intro s₀ left s s' bs
  have hopened : Sieved k [] [] s₀ s₀ := .opened k now ttl name rest
  obtain ⟨ls, H⟩ := hopened.after (L := L) (Cache.Ledger.Valid.new now ttl name) before
  rw [List.nil_append] at H
  refine ⟨⟨_, sieveRun_append before later⟩, isAbout_of_mem_sieveRun, fun f' hf' => ?_,
    H.callers.length_eq_count, fun c hc r => ?_, H.calls, H.stage.agreeAt,
    fun a => (H.stage.play a).agreeAt⟩
  · obtain ⟨f, -, hff⟩ := H.flights.forall_mem f' hf'
    rw [hff.job]
    exact hff.key
  · obtain ⟨x, x', hx, hx', hown⟩ := H.callers.exists_of_marked hc
    rw [hx, hx']
    cases hown <;> simp

/-- Two callers ask for different keys, and one gate is opened for both of their loads. The load of
the second key takes the time of its answer, and drops the first key. -/
example :
    sieveRun patient (.number 1) [] (Session.opened 0 none "cache" ())
      [.spawn ⟨.number 2, none⟩, .spawn ⟨.number 1, none⟩, .turn (.caller 0), .turn (.caller 1),
        .turn (.load 0), .turn (.load 1), .edit (.put (.number 2) 8),
        .release "slow" ⟨some 1, [.invalidate (.number 1), .invalidate (.number 2)], .ok 5⟩,
        .turn (.load 0), .turn (.load 1), .turn (.deliver 1 1), .cancel 0, .turn (.caller 1)] =
      [.spawn ⟨.number 1, none⟩, .turn (.caller 0), .elapse 0, .stir fun _ => (), .turn (.load 0),
        .release "slow" ⟨some 1, [.invalidate (.number 1)], .ok 5⟩, .elapse (0 + 1), .stir fun _ => (),
        .edit (.invalidate (.number 1)), .turn (.load 0), .turn (.deliver 0 0), .turn (.caller 0)] :=
  rfl

end Getting

end NodeKeeper
