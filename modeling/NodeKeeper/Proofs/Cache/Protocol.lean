import NodeKeeper.Proofs.Cache.History

/-!
# The protocol of a cache in use

Those who use a cache touch it in a few ways only: they look, change, ask, start loads, and end
them. A *course* is any sequence of such steps, in any order, together with its history. Whatever
scheduler lets the users of a cache take their turns, what the cache goes through is a course.

## Main definitions

* `Cache.Account` — what counts about a load: its key, and whether it has landed.
* `Cache.Ledger` — a clock, a cache, and the accounts of all loads that it ever started.
* `Cache.Step`, `Cache.Course` — one step, and any number of them.
* `Cache.Ledger.Valid` — the tables of a cache agree with the accounts of its loads.
* `Cache.Sound` — a ledger is in keeping with a history.

## Main results

* `Cache.Ledger.Valid.step` — every step keeps a ledger valid.
* `Cache.Sound.step`, `Cache.Sound.course` — every course keeps a ledger in keeping with its
  history.
* `Cache.Sound.unfinished_iff_mem` — a load has not finished, by the history, if and only if the
  cache says so.
-/

namespace NodeKeeper.Cache

/-- What counts about a load: its key, and whether it has landed. -/
structure Account (κ : Type) where
  key : κ
  landed : Bool := false

/-- A clock, a cache, and the accounts of all loads that it ever started, in that order. -/
structure Ledger (κ ν τ : Type) where
  now : τ
  cache : Cache κ ν τ
  flights : List (Account κ) := []

variable {κ ν τ : Type} [DecidableEq κ]

/-- The end of the load of a number, if it has not finished. -/
def close (c : Cache κ ν τ) (now : τ) (l : Nat) (value : Option ν) : Cache κ ν τ :=
  match c.loads.find? fun m => m.id == l with
  | some load => (c.finish now load value).2
  | none => c

/-- The end of a load leaves the lifetime of values as it was set, whether the value is installed or
not. -/
lemma ttl_close (c : Cache κ ν τ) (now : τ) (l : Nat) (value : Option ν) :
    (c.close now l value).ttl = c.ttl := by
  unfold close
  split
  · exact ttl_finish _ _ _ _
  · rfl

/-- A load has not finished, by the history. -/
def Unfinished (l : Nat) (k : κ) (h : History κ ν τ) : Prop :=
  .started l k ∈ h ∧ ∀ v t, .ended l k v t ∉ h

variable [Add τ] [LE τ] [DecidableLE τ]

/-- A step of those who use a cache, and what it adds to the history, the latest event first. -/
inductive Step : Ledger κ ν τ → History κ ν τ → Ledger κ ν τ → Prop
  /-- The clock goes on; it is never turned back. -/
  | elapse {b : Ledger κ ν τ} {later : τ} (hle : b.now = later ∨ b.now ≤ later) :
      Step b [] { b with now := later }
  | lookup (b : Ledger κ ν τ) (k : κ) :
      Step b [] { b with cache := (b.cache.lookup b.now k).2 }
  | keys (b : Ledger κ ν τ) : Step b [] { b with cache := (b.cache.keys b.now).2 }
  | put (b : Ledger κ ν τ) (k : κ) (v : ν) :
      Step b [.put k v b.now] { b with cache := b.cache.put b.now k v }
  | drop (b : Ledger κ ν τ) (k : κ) :
      Step b [.dropped k] { b with cache := (b.cache.invalidate k).2 }
  | dropAll (b : Ledger κ ν τ) : Step b [.droppedAll] { b with cache := b.cache.invalidateAll }
  /-- Somebody asks for a key that shows or has a shared load, or that nobody could load. -/
  | ask {b : Ledger κ ν τ} {k : κ} {canLoad : Bool}
      (ha : (b.cache.lookup b.now k).1 = none → b.cache.flight? k = none → canLoad = false) :
      Step b [.asked k canLoad] { b with cache := (b.cache.lookup b.now k).2 }
  /-- Somebody asks for a key that does not show and has no shared load, and a load is started. -/
  | start {b : Ledger κ ν τ} {k : κ} (hl : (b.cache.lookup b.now k).1 = none)
      (hf : b.cache.flight? k = none) :
      Step b [.started b.cache.nextLoad k, .asked k true]
        { b with
          cache := (b.cache.lookup b.now k).2.startLoad k
          flights := b.flights ++ [⟨k, false⟩] }
  /-- A load ends. -/
  | land {b : Ledger κ ν τ} {l : Nat} {k : κ} (ha : b.flights[l]? = some ⟨k, false⟩)
      (value : Option ν) :
      Step b [.ended l k value b.now]
        { b with
          cache := b.cache.close b.now l value
          flights := b.flights.set l ⟨k, true⟩ }

/-- Any number of steps, and the history of them, the latest event first. -/
inductive Course (b : Ledger κ ν τ) : History κ ν τ → Ledger κ ν τ → Prop
  | refl : Course b [] b
  | step {h es : History κ ν τ} {b' b'' : Ledger κ ν τ} (hc : Course b h b')
      (hs : Step b' es b'') : Course b (es ++ h) b''

/-- The lifetime of entries never changes. -/
lemma Step.ttl_eq {b b' : Ledger κ ν τ} {h : History κ ν τ} (hs : Step b h b') :
    b'.cache.ttl = b.cache.ttl := by
  cases hs with
  | lookup k => exact ttl_lookup _ _ _
  | dropAll => simp [invalidateAll_eq]
  | ask _ => exact ttl_lookup _ _ _
  | start _ _ => exact ttl_lookup _ _ _
  | land _ value => exact ttl_close _ _ _ _
  | elapse _ | keys | put _ _ | drop _ => rfl

namespace Course

variable {b b' b'' : Ledger κ ν τ} {h h' : History κ ν τ}

/-- One step is a course, with the history of this step. -/
lemma single (hs : Step b h b') : Course b h b' := by
  simpa using refl.step hs

/-- One course after the other is a course. -/
lemma trans (hc : Course b h b') (hc' : Course b' h' b'') : Course b (h' ++ h) b'' := by
  induction hc' with
  | refl => exact hc
  | step _ hs ih =>
    rw [List.append_assoc]
    exact ih.step hs

/-- No course changes the lifetime of values: it is set once, when the cache is made. -/
lemma ttl_eq (hc : Course b h b') : b'.cache.ttl = b.cache.ttl := by
  induction hc with
  | refl => rfl
  | step _ hs ih => rw [hs.ttl_eq, ih]

end Course

/-! ## Valid ledgers -/

/-- The tables of the cache agree with each other, and with the accounts: the loads that the cache
knows are those that have not landed. -/
structure Ledger.Valid (b : Ledger κ ν τ) : Prop where
  coherent : b.cache.Coherent
  length_flights : b.flights.length = b.cache.nextLoad
  mem_loads_iff : ∀ l k, (∃ load ∈ b.cache.loads, load.id = l ∧ load.key = k) ↔
    b.flights[l]? = some ⟨k, false⟩

namespace Ledger.Valid

variable {b b' : Ledger κ ν τ} {h : History κ ν τ}

omit [DecidableEq κ] [Add τ] [LE τ] [DecidableLE τ] in
/-- A ledger in which nothing was done is valid. -/
lemma new (now : τ) (ttl : Option τ) (name : String) :
    Valid ({ now, cache := { ttl, name } } : Ledger κ ν τ) where
  coherent := Coherent.new ttl name
  length_flights := rfl
  mem_loads_iff := by simp

omit [DecidableEq κ] [Add τ] [LE τ] [DecidableLE τ] in
/-- A step that neither starts nor ends a load keeps the accounts. -/
lemma of_coherent (H : Valid b) (hc : b'.cache.Coherent) (hloads : b'.cache.loads = b.cache.loads)
    (hnext : b'.cache.nextLoad = b.cache.nextLoad) (hflights : b'.flights = b.flights) :
    Valid b' where
  coherent := hc
  length_flights := by rw [hflights, hnext, H.length_flights]
  mem_loads_iff := by
    rw [hloads, hflights]
    exact H.mem_loads_iff

omit [DecidableEq κ] [Add τ] [LE τ] [DecidableLE τ] in
/-- The new load is the last one that has an account, and its number is new. -/
lemma getElem?_append_iff (H : Valid b) (l : Nat) (x y : Account κ) :
    (b.flights ++ [x])[l]? = some y ↔ l = b.cache.nextLoad ∧ x = y ∨ b.flights[l]? = some y := by
  rw [← H.length_flights, List.getElem?_append]
  split
  · next hlt => simp [Nat.ne_of_lt hlt]
  · next hge =>
    rw [List.getElem?_eq_none (Nat.le_of_not_lt hge)]
    simp only [List.getElem?_singleton, Option.ite_none_right_eq_some, Option.some.injEq,
      reduceCtorEq, or_false]
    exact and_congr_left fun _ => by omega

/-- A load that is started leaves the ledger valid: its account is the next one on the list, which
is where its number says that it stands.

**Proof sketch.** The look that came first can only have shed expired entries. The new load gets the
next number, and the new account is the next one in the list, so that loads and accounts still
match. -/
lemma start (H : Valid b) {k : κ} (hl : (b.cache.lookup b.now k).1 = none)
    (hf : b.cache.flight? k = none) :
    Valid
      { b with
        cache := (b.cache.lookup b.now k).2.startLoad k
        flights := b.flights ++ [⟨k, false⟩] } where
  coherent := by
    refine (H.coherent.sheds (sheds_lookup H.coherent.entry_unique b.now k)).startLoad
      (kept?_lookup_of_none hl) ?_
    simpa using flight?_eq_none.1 hf
  length_flights := by simp [Cache.startLoad, H.length_flights]
  mem_loads_iff := by
    intro l j
    rw [H.getElem?_append_iff, ← H.mem_loads_iff]
    simp only [Cache.startLoad, loads_lookup, nextLoad_lookup, List.mem_cons, exists_eq_or_imp,
      Account.mk.injEq, and_true]
    exact or_congr (and_congr_left fun _ => eq_comm) Iff.rfl

omit [Add τ] [LE τ] [DecidableLE τ] in
/-- The cache finishes the load that has landed.

**Proof sketch.** By validity the load is on the books of the cache. Numbers are unique there, so
`find?` comes upon this load. -/
lemma close_eq (H : Valid b) {l : Nat} {k : κ} (ha : b.flights[l]? = some ⟨k, false⟩)
    (value : Option ν) :
    ∃ load ∈ b.cache.loads, load.id = l ∧ load.key = k ∧
      b.cache.close b.now l value = (b.cache.finish b.now load value).2 := by
  obtain ⟨load, hm, rfl, rfl⟩ := (H.mem_loads_iff l k).2 ha
  refine ⟨load, hm, rfl, rfl, ?_⟩
  cases hfind : b.cache.loads.find? (fun m => m.id == load.id) with
  | none => exact absurd (by simp) (List.find?_eq_none.1 hfind load hm)
  | some found =>
    have hid : found.id = load.id := by simpa using List.find?_some hfind
    have := H.coherent.load_eq (List.mem_of_find?_eq_some hfind) hm hid
    simp [close, hfind, this]

omit [DecidableEq κ] [Add τ] [LE τ] [DecidableLE τ] in
/-- The load that has landed has a new account, and all others have their old ones. -/
lemma getElem?_set_iff {l : Nat} {x : Account κ} (ha : b.flights[l]? = some x) (y z : Account κ)
    (m : Nat) : (b.flights.set l y)[m]? = some z ↔
      m = l ∧ y = z ∨ m ≠ l ∧ b.flights[m]? = some z := by
  have hlt : l < b.flights.length := (List.getElem?_eq_some_iff.1 ha).1
  by_cases hm : m = l
  · simp [hm, hlt]
  · simp [List.getElem?_set_ne (Ne.symm hm), hm]

omit [Add τ] [LE τ] [DecidableLE τ] in
/-- A load that ends leaves the ledger valid: its account says so from then on, and the cache has
taken it off its books.

**Proof sketch.** The load is taken off the books of the cache, and its account is struck off; those
of all others stay where they are. -/
lemma land (H : Valid b) {l : Nat} {k : κ} (ha : b.flights[l]? = some ⟨k, false⟩)
    (value : Option ν) :
    Valid
      { b with
        cache := b.cache.close b.now l value
        flights := b.flights.set l ⟨k, true⟩ } := by
  have hget := getElem?_set_iff ha ⟨k, true⟩
  obtain ⟨load, hm, rfl, rfl, hclose⟩ := H.close_eq ha value
  rw [hclose]
  refine ⟨H.coherent.finish hm b.now value, ?_, ?_⟩
  · simp [H.length_flights]
  · intro m j
    rw [hget]
    simp only [loads_finish, List.mem_filter, ne_eq, decide_eq_true_eq, ← H.mem_loads_iff,
      Account.mk.injEq, Bool.true_eq_false, and_false, false_or]
    constructor
    · rintro ⟨n, ⟨hn, hne⟩, rfl, rfl⟩
      exact ⟨hne, n, hn, rfl, rfl⟩
    · rintro ⟨hne, n, hn, rfl, rfl⟩
      exact ⟨n, ⟨hn, hne⟩, rfl, rfl⟩

/-- **One step** keeps a ledger valid.

**Proof sketch.** The cases are those of the step. Looks and edits keep the tables coherent and
touch no account; to start and to land a load have their own lemmas. -/
theorem step (H : Valid b) (hs : Step b h b') : Valid b' := by
  have hlookup (k : κ) : (b.cache.lookup b.now k).2.Coherent :=
    H.coherent.sheds (sheds_lookup H.coherent.entry_unique b.now k)
  cases hs with
  | elapse _ => exact H.of_coherent H.coherent rfl rfl rfl
  | lookup k => exact H.of_coherent (hlookup k) (by simp) (by simp) rfl
  | keys => exact H.of_coherent (H.coherent.sheds (sheds_keys _ _)) rfl rfl rfl
  | put k v => exact H.of_coherent (H.coherent.put b.now k v) rfl rfl rfl
  | drop k => exact H.of_coherent (H.coherent.invalidate k) rfl rfl rfl
  | dropAll =>
    exact H.of_coherent H.coherent.invalidateAll (by simp [invalidateAll_eq])
      (by simp [invalidateAll_eq]) rfl
  | ask _ => exact H.of_coherent (hlookup _) (by simp) (by simp) rfl
  | start hl hf => exact H.start hl hf
  | land ha value => exact H.land ha value

end Ledger.Valid

/-! ## Ledgers and histories -/

/-- A ledger is in keeping with a history. -/
structure Sound (b : Ledger κ ν τ) (h : History κ ν τ) : Prop where
  tells : Tells b.cache b.now h
  length_flights : b.flights.length = b.cache.nextLoad
  /-- The cache knows the loads that have not landed. -/
  mem_loads_iff : ∀ l k, (∃ load ∈ b.cache.loads, load.id = l ∧ load.key = k) ↔
    b.flights[l]? = some ⟨k, false⟩
  started_iff : ∀ l k, .started l k ∈ h ↔ ∃ landed, b.flights[l]? = some ⟨k, landed⟩
  ended_iff : ∀ l k, (∃ v t, .ended l k v t ∈ h) ↔ b.flights[l]? = some ⟨k, true⟩

namespace Sound

variable {b b' : Ledger κ ν τ} {h es : History κ ν τ}

/-- A ledger in which nothing was done has no history. -/
lemma new (now : τ) (ttl : Option τ) (name : String) :
    Sound ({ now, cache := { ttl, name } } : Ledger κ ν τ) [] where
  tells := Tells.new ttl name now
  length_flights := rfl
  mem_loads_iff := by simp
  started_iff := by simp
  ended_iff := by simp

/-- A load has not finished, by the history, if and only if the cache says so.

**Proof sketch.** A load has started if it has an account, and has ended if this is struck off. The
cache has the loads whose accounts are not. -/
theorem unfinished_iff_mem (H : Sound b h) (l : Nat) (k : κ) :
    Unfinished l k h ↔ ∃ load ∈ b.cache.loads, load.id = l ∧ load.key = k := by
  have hend : (∀ v t, .ended l k v t ∉ h) ↔ ¬ b.flights[l]? = some ⟨k, true⟩ := by
    rw [← H.ended_iff]
    simp
  rw [Unfinished, H.started_iff, hend, H.mem_loads_iff]
  constructor
  · rintro ⟨⟨_ | _, hl⟩, hn⟩
    · exact hl
    · exact absurd hl hn
  · intro hl
    exact ⟨⟨false, hl⟩, by simp [hl]⟩

/-- A ledger that is in keeping with a history is valid. -/
lemma valid (H : Sound b h) : b.Valid := ⟨H.tells.coherent, H.length_flights, H.mem_loads_iff⟩

/-- A key has a shared load if and only if a load of it has not finished and was not superseded. -/
theorem mem_inFlight_iff (H : Sound b h) (k : κ) (l : Nat) :
    (k, l) ∈ b.cache.inFlight ↔ Unfinished l k h ∧ unsuperseded l k h = true := by
  rw [H.unfinished_iff_mem, H.tells.coherent.flight_iff]
  constructor
  · rintro ⟨load, hm, rfl, rfl, hg⟩
    exact ⟨⟨load, hm, rfl, rfl⟩, (H.tells.current_iff load hm).1 hg⟩
  · rintro ⟨⟨load, hm, rfl, rfl⟩, hu⟩
    exact ⟨load, hm, rfl, rfl, (H.tells.current_iff load hm).2 hu⟩

/-- A step that neither starts nor ends a load keeps the accounts.

**Proof sketch.** What the cache and its history have to say to each other is given; the accounts
and the loads are those of before, and the new events are about neither. -/
lemma of_tells (H : Sound b h) (ht : Tells b'.cache b'.now (es ++ h))
    (hloads : b'.cache.loads = b.cache.loads) (hnext : b'.cache.nextLoad = b.cache.nextLoad)
    (hflights : b'.flights = b.flights) (hstart : ∀ l k, .started l k ∉ es)
    (hend : ∀ l k v t, .ended l k v t ∉ es) : Sound b' (es ++ h) where
  tells := ht
  length_flights := by rw [hflights, hnext, H.length_flights]
  mem_loads_iff := by
    rw [hloads, hflights]
    exact H.mem_loads_iff
  started_iff := by
    intro l k
    rw [hflights, ← H.started_iff, List.mem_append, or_iff_right (hstart l k)]
  ended_iff := by
    intro l k
    rw [hflights, ← H.ended_iff]
    simp only [List.mem_append, hend, false_or]

/-! ### Loads -/

/-- A load that is started by someone who finds nothing leaves the history sound, and is a part of
it from then on.

**Proof sketch.** The cache is in keeping with its history after the look, the question and the
start. The new account is that of the load that the history has as started, and no load is ended. -/
lemma start (H : Sound b h) {k : κ} (hl : (b.cache.lookup b.now k).1 = none)
    (hf : b.cache.flight? k = none) :
    Sound
      { b with
        cache := (b.cache.lookup b.now k).2.startLoad k
        flights := b.flights ++ [⟨k, false⟩] }
      (.started b.cache.nextLoad k :: .asked k true :: h) := by
  have hget := H.valid.getElem?_append_iff
  have hvalid := H.valid.start hl hf
  refine ⟨?_, hvalid.length_flights, hvalid.mem_loads_iff, ?_, ?_⟩
  · have ht := ((H.tells.lookup k).asked k true).startLoad (kept?_lookup_of_none hl)
      (by simpa using flight?_eq_none.1 hf)
    rwa [nextLoad_lookup] at ht
  · intro l j
    simp only [hget, List.mem_cons, Event.started.injEq, reduceCtorEq, false_or, H.started_iff,
      exists_or, Account.mk.injEq, exists_and_left, exists_eq', and_true]
    exact or_congr (and_congr_right fun _ => eq_comm) Iff.rfl
  · intro l j
    simp [hget, H.ended_iff]

/-- A load that ends leaves the history sound: its end is a part of it, and its value shows if the
load was current until then.

**Proof sketch.** By `close_eq` the load that is closed is the one of this number and key. The
history tells of its end just as its account does, and what it installs is told by
`Tells.finish`. -/
lemma land (H : Sound b h) {l : Nat} {k : κ} (ha : b.flights[l]? = some ⟨k, false⟩)
    (value : Option ν) :
    Sound
      { b with
        cache := b.cache.close b.now l value
        flights := b.flights.set l ⟨k, true⟩ }
      (.ended l k value b.now :: h) := by
  have hget := Ledger.Valid.getElem?_set_iff ha ⟨k, true⟩
  have hvalid := H.valid.land ha value
  obtain ⟨load, hm, rfl, rfl, hclose⟩ := H.valid.close_eq ha value
  refine ⟨?_, hvalid.length_flights, hvalid.mem_loads_iff, ?_, ?_⟩
  · rw [hclose]
    exact H.tells.finish hm value
  · intro m j
    simp only [hget, List.mem_cons, reduceCtorEq, false_or, H.started_iff]
    grind
  · intro m j
    simp only [hget, List.mem_cons, Event.ended.injEq, exists_or, H.ended_iff]
    grind

/-- **One step** keeps a ledger in keeping with its history.

**Proof sketch.** The steps that start or end a load are `start` and `land`. All others keep the
accounts, and what they do to the cache is told as it should be. -/
theorem step [IsTrans τ (· ≤ ·)] (H : Sound b h) (hs : Step b es b') : Sound b' (es ++ h) := by
  cases hs with
  | elapse hle =>
    exact H.of_tells (H.tells.advance hle) rfl rfl rfl (by simp) (by simp)
  | lookup k =>
    exact H.of_tells (H.tells.lookup k) (by simp) (by simp) rfl (by simp) (by simp)
  | keys =>
    exact H.of_tells H.tells.keys rfl rfl rfl (by simp) (by simp)
  | put k v =>
    exact H.of_tells (H.tells.put k v) rfl rfl rfl (by simp) (by simp)
  | drop k =>
    exact H.of_tells (H.tells.invalidate k) rfl rfl rfl (by simp) (by simp)
  | dropAll =>
    exact H.of_tells H.tells.invalidateAll (by simp [invalidateAll_eq]) (by simp [invalidateAll_eq])
      rfl (by simp) (by simp)
  | @ask k canLoad _ =>
    exact H.of_tells ((H.tells.lookup k).asked k canLoad) (by simp) (by simp) rfl (by simp)
      (by simp)
  | start hl hf => exact H.start hl hf
  | land ha value => exact H.land ha value

/-- **Every course** keeps a ledger in keeping with its history. -/
theorem course [IsTrans τ (· ≤ ·)] (H : Sound b h) (hc : Course b es b') :
    Sound b' (es ++ h) := by
  induction hc with
  | refl => exact H
  | step _ hs ih =>
    rw [List.append_assoc]
    exact ih.step hs

end Sound

end NodeKeeper.Cache
