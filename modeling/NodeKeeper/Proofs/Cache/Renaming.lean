import NodeKeeper.Proofs.Cache.Tables

/-!
# Caches under other keys

A cache asks of its keys only which of them are the same, and how they are shown; it asks nothing of
its values. Keys may therefore be exchanged for others that are as different from each other and
look alike, and values for any others: whatever is done to both caches, they stay the same but for
that.

## Main definitions

* `Renaming` — keys are exchanged one for one for others that look alike, and values for others.
* `Cache.Renamed` — a cache is another one under other keys and with other values.
* `Stage.Renamed` — the same for caches in use, whose logs agree.

## Main results

* `Cache.Renamed.lookup`, `Cache.Renamed.request` — what is found under the other keys.
* `Stage.Renamed.apply`, `Stage.Renamed.finish` — edits and the ends of loads keep two caches in use
  the same but for the renaming, their logs included.
-/

namespace NodeKeeper

/-- Keys are exchanged one for one for others that look alike, and values for others. -/
structure Renaming (κ ν : Type) [Keylike κ] where
  key : κ → κ
  value : ν → ν
  key_injective : Function.Injective key
  shown_key : ∀ k, Keylike.shown (key k) = Keylike.shown k
  written_key : ∀ k, Keylike.written (key k) = Keylike.written k

variable {σ σ' κ ν τ : Type} [Keylike κ] (ρ : Renaming κ ν)

namespace Renaming

/-- An entry after the renaming: its key and its value have new names, and it was installed at the
same time. -/
def entry (e : Cache.Entry κ ν τ) : Cache.Entry κ ν τ := ⟨ρ.key e.key, ρ.value e.value, e.installed⟩

/-- A load after the renaming. -/
def load (l : Cache.Load κ) : Cache.Load κ := { l with key := ρ.key l.key }

/-- What a request comes to after the renaming. -/
def access : Cache.Access ν → Cache.Access ν
  | .hit v => .hit (ρ.value v)
  | .joined l => .joined l
  | .started l => .started l
  | .noLoader => .noLoader

/-- An edit of the cache after the renaming. -/
def edit : Edit κ ν → Edit κ ν
  | .put k v => .put (ρ.key k) (ρ.value v)
  | .invalidate k => .invalidate (ρ.key k)
  | .invalidateAll => .invalidateAll
  | .lookup k => .lookup (ρ.key k)
  | .keys => .keys

end Renaming

namespace Cache

/-- A cache is another one under other keys and with other values. -/
structure Renamed (c c' : Cache κ ν τ) : Prop where
  ttl : c'.ttl = c.ttl
  name : c'.name = c.name
  entries : c'.entries = c.entries.map ρ.entry
  inFlight : c'.inFlight = c.inFlight.map (Prod.map ρ.key id)
  generation : ∀ k, c'.generation (ρ.key k) = c.generation k
  loads : c'.loads = c.loads.map ρ.load
  nextLoad : c'.nextLoad = c.nextLoad

namespace Renamed

variable {ρ} {c c' : Cache κ ν τ}

/-- Two caches in which nothing was done. -/
lemma new (ttl : Option τ) (name : String) :
    Renamed ρ ({ ttl, name } : Cache κ ν τ) { ttl, name } :=
  ⟨rfl, rfl, rfl, rfl, fun _ => rfl, rfl, rfl⟩

/-- Entries expire alike under other names, since renaming does not touch the instants at which they
were installed. -/
lemma isFresh [Add τ] [LE τ] [DecidableLE τ] (H : Renamed ρ c c') (now : τ)
    (e : Entry κ ν τ) : c'.isFresh now (ρ.entry e) = c.isFresh now e := by
  rw [Cache.isFresh, Cache.isFresh, H.ttl]
  rfl

/-- Nobody said how to load a key: this is said in the same words. -/
lemma noLoaderFault (H : Renamed ρ c c') (k : κ) :
    c'.noLoaderFault (ρ.key k) = c.noLoaderFault k := by
  rw [Cache.noLoaderFault, Cache.noLoaderFault, H.name, ρ.written_key]

variable [DecidableEq κ]

omit [Keylike κ] in
/-- Different keys stay different. -/
lemma filter_key {β : Type} {f : κ → κ} (hf : Function.Injective f) (p : β → κ) (g : β → β)
    (hg : ∀ x, p (g x) = f (p x)) (k : κ) (xs : List β) :
    (xs.map g).filter (fun x => p x ≠ f k) = (xs.filter fun x => p x ≠ k).map g := by
  rw [List.filter_map]
  congr 1
  refine List.filter_congr fun x _ => ?_
  simp [hg, hf.eq_iff]

/-! ### Entries -/

/-- What is kept at a key is found under its new name, itself renamed. No other key can have come to
this name. -/
lemma kept? (H : Renamed ρ c c') (k : κ) : c'.kept? (ρ.key k) = (c.kept? k).map ρ.entry := by
  rw [Cache.kept?, Cache.kept?, H.entries, List.find?_map]
  congr 2
  funext e
  simp [Renaming.entry, ρ.key_injective.eq_iff]

/-- A renamed entry takes the place that the entry has: at the same position if its key was there,
and at the end otherwise. -/
lemma placeEntry (e : Entry κ ν τ) (es : List (Entry κ ν τ)) :
    Cache.placeEntry (ρ.entry e) (es.map ρ.entry) = (Cache.placeEntry e es).map ρ.entry := by
  induction es with
  | nil => rfl
  | cons x rest ih =>
    have hiff : (ρ.entry x).key = (ρ.entry e).key ↔ x.key = e.key := ρ.key_injective.eq_iff
    simp only [List.map_cons, Cache.placeEntry, hiff]
    split
    · rfl
    · rw [ih, List.map_cons]

/-- An entry is taken out under its old name and under the new one. -/
lemma dropEntry (H : Renamed ρ c c') (k : κ) : Renamed ρ (c.dropEntry k) (c'.dropEntry (ρ.key k)) :=
  { H with
    entries := by
      simp only [Cache.dropEntry]
      rw [H.entries]
      exact filter_key ρ.key_injective Entry.key ρ.entry (fun _ => rfl) k c.entries }

/-- A value is installed under its old name and under the new one, at the same instant. -/
lemma install (H : Renamed ρ c c') (now : τ) (k : κ) (v : ν) :
    Renamed ρ (c.install now k v) (c'.install now (ρ.key k) (ρ.value v)) :=
  { H with
    entries := by
      simp only [Cache.install]
      rw [H.entries]
      exact placeEntry ⟨k, v, now⟩ c.entries }

/-! ### Changes from outside -/

/-- The loads of a key are superseded under its old name and under the new one, and the generation
goes up in both caches. -/
lemma supersede (H : Renamed ρ c c') (k : κ) : Renamed ρ (c.supersede k) (c'.supersede (ρ.key k)) :=
  { H with
    inFlight := by
      simp only [Cache.supersede]
      rw [H.inFlight]
      exact filter_key ρ.key_injective Prod.fst (Prod.map ρ.key id) (fun _ => rfl) k c.inFlight
    generation := fun j => by
      simp only [generation_supersede, ρ.key_injective.eq_iff, H.generation] }

/-- A value is put under its old name and under the new one. Renamed caches stay renamed, as putting
is installing and superseding. -/
lemma put (H : Renamed ρ c c') (now : τ) (k : κ) (v : ν) :
    Renamed ρ (c.put now k v) (c'.put now (ρ.key k) (ρ.value v)) :=
  (H.supersede k).install now k v

/-- A key is dropped under its old name and under the new one, and both caches say alike whether
there was anything. -/
lemma invalidate (H : Renamed ρ c c') (k : κ) :
    (c'.invalidate (ρ.key k)).1 = (c.invalidate k).1 ∧
      Renamed ρ (c.invalidate k).2 (c'.invalidate (ρ.key k)).2 := by
  refine ⟨?_, (H.supersede k).dropEntry k⟩
  rw [Cache.invalidate, Cache.invalidate, H.kept?, Option.isSome_map]

/-- All keys are dropped in both caches. Every key goes to the generation that its new name goes
to.

**Proof sketch.** The known keys are renamed one by one, and each of them is superseded in both
caches. -/
lemma invalidateAll (H : Renamed ρ c c') : Renamed ρ c.invalidateAll c'.invalidateAll := by
  have hfold (ks : List κ) {c c' : Cache κ ν τ} (H : Renamed ρ c c') :
      Renamed ρ (ks.foldl Cache.supersede c) ((ks.map ρ.key).foldl Cache.supersede c') := by
    induction ks generalizing c c' with
    | nil => exact H
    | cons k ks ih => exact ih (H.supersede k)
  have hknown : c'.entries.map Entry.key ++ c'.inFlight.map Prod.fst =
      (c.entries.map Entry.key ++ c.inFlight.map Prod.fst).map ρ.key := by
    rw [H.entries, H.inFlight, List.map_append, List.map_map, List.map_map, List.map_map,
      List.map_map]
    rfl
  rw [Cache.invalidateAll, Cache.invalidateAll, hknown]
  exact { hfold _ H with entries := rfl }

/-! ### Loads -/

/-- The load that is shared at a key is shared at its new name. Loads keep their numbers. -/
lemma flight? (H : Renamed ρ c c') (k : κ) : c'.flight? (ρ.key k) = c.flight? k := by
  have hlookup (ps : List (κ × Nat)) :
      (ps.map (Prod.map ρ.key id)).lookup (ρ.key k) = ps.lookup k := by
    induction ps with
    | nil => rfl
    | cons p ps ih =>
      rw [List.map_cons, Prod.map, List.lookup_cons, List.lookup_cons, ih]
      rw [show (ρ.key k == ρ.key p.1) = (k == p.1) by simp [ρ.key_injective.eq_iff]]
      rfl
  rw [Cache.flight?, Cache.flight?, H.inFlight, hlookup]

omit [DecidableEq κ] in
/-- A load is started under the old name and under the new one, and has the same number in both
caches. -/
lemma startLoad (H : Renamed ρ c c') (k : κ) :
    Renamed ρ (c.startLoad k) (c'.startLoad (ρ.key k)) where
  ttl := H.ttl
  name := H.name
  entries := H.entries
  inFlight := by
    simp only [Cache.startLoad, H.inFlight, H.nextLoad, List.map_cons]
    rfl
  generation := H.generation
  loads := by
    simp only [Cache.startLoad, H.loads, H.nextLoad, H.generation, List.map_cons]
    rfl
  nextLoad := congrArg (· + 1) H.nextLoad

/-- A load is taken off the books in both caches. What it shared under its key is looked for by its
number, which is the same.

**Proof sketch.** A load is told apart by its number and its key, and renaming is injective on
keys. -/
lemma dropLoad (H : Renamed ρ c c') (l : Load κ) :
    Renamed ρ (c.dropLoad l) (c'.dropLoad (ρ.load l)) :=
  { H with
    inFlight := by
      simp only [Cache.dropLoad]
      rw [H.inFlight, List.filter_map]
      congr 1
      refine List.filter_congr fun p _ => ?_
      simp [Prod.ext_iff, Renaming.load, ρ.key_injective.eq_iff]
    loads := by
      simp only [Cache.dropLoad]
      rw [H.loads, List.filter_map]
      rfl }

/-- A load ends in both caches with the same effect: either it was superseded in both and its value
is dropped, or its value is installed in both.

**Proof sketch.** Whether the load is current is the same question in both caches, since its
generation and that of its key are. -/
lemma finish (H : Renamed ρ c c') (now : τ) (l : Load κ) (value : Option ν) :
    (c'.finish now (ρ.load l) (value.map ρ.value)).1 = (c.finish now l value).1 ∧
      Renamed ρ (c.finish now l value).2 (c'.finish now (ρ.load l) (value.map ρ.value)).2 := by
  cases value with
  | none => exact ⟨rfl, H.dropLoad l⟩
  | some v =>
    simp only [Cache.finish, Option.map_some]
    rw [show c'.generation (ρ.load l).key = c.generation l.key from H.generation l.key,
      show (ρ.load l).generation = l.generation from rfl]
    split
    · exact ⟨rfl, (H.install now l.key v).dropLoad l⟩
    · exact ⟨rfl, H.dropLoad l⟩

/-! ### Looking and asking -/

variable [Add τ] [LE τ] [DecidableLE τ]

/-- A key is looked up under its old name and under the new one. What is found is the same value,
renamed, and an expired entry is taken out of both caches. -/
lemma lookup (H : Renamed ρ c c') (now : τ) (k : κ) :
    (c'.lookup now (ρ.key k)).1 = (c.lookup now k).1.map ρ.value ∧
      Renamed ρ (c.lookup now k).2 (c'.lookup now (ρ.key k)).2 := by
  rw [Cache.lookup, Cache.lookup, H.kept?]
  cases c.kept? k with
  | none => exact ⟨rfl, H⟩
  | some e =>
    simp only [Option.map_some, H.isFresh]
    split
    · exact ⟨rfl, H⟩
    · exact ⟨rfl, H.dropEntry k⟩

omit [DecidableEq κ] in
/-- The keys of the one cache are listed as those of the other one, renamed, and in the same
order. -/
lemma keys (H : Renamed ρ c c') (now : τ) :
    (c'.keys now).1 = (c.keys now).1.map ρ.key ∧ Renamed ρ (c.keys now).2 (c'.keys now).2 := by
  have hlive : c'.entries.filter (c'.isFresh now) =
      (c.entries.filter (c.isFresh now)).map ρ.entry := by
    rw [H.entries, List.filter_map]
    congr 1
    exact List.filter_congr fun e _ => H.isFresh now e
  refine ⟨?_, { H with entries := hlive }⟩
  simp only [Cache.keys, hlive, List.map_map]
  rfl

/-- **Asking for a key** under its other name.

**Proof sketch.** Both look at the key first, and what they see is the same up to names. If nothing
is shown, both look for a shared load, and find the same one; if there is none, both start one, of
the same number, or neither does. -/
theorem request (H : Renamed ρ c c') (now : τ) (k : κ) (canLoad : Bool) :
    (c'.request now (ρ.key k) canLoad).1 = ρ.access (c.request now k canLoad).1 ∧
      Renamed ρ (c.request now k canLoad).2 (c'.request now (ρ.key k) canLoad).2 := by
  obtain ⟨hvalue, hcache⟩ := H.lookup now k
  have hflight := hcache.flight? k
  have hnext := hcache.nextLoad
  unfold Cache.request
  revert hvalue hcache hflight hnext
  rcases c.lookup now k with ⟨v, d⟩
  rcases c'.lookup now (ρ.key k) with ⟨v', d'⟩
  rintro rfl hcache hflight hnext
  cases v with
  | some v => exact ⟨rfl, hcache⟩
  | none =>
    dsimp only [Option.map_none] at hcache hflight hnext ⊢
    rw [hflight]
    cases d.flight? k with
    | some id => exact ⟨rfl, hcache⟩
    | none =>
      cases canLoad with
      | true => exact ⟨congrArg Access.started hnext, hcache.startLoad k⟩
      | false => exact ⟨rfl, hcache⟩

end Renamed

end Cache

/-! ## Caches in use -/

/-- A cache in use is another one under other keys and with other values. The worlds of the two are
in a relation, and of what they have reported the same counts. -/
structure Stage.Renamed (counts : Log.Event → Bool) (World : σ → σ' → Prop)
    (st : Stage σ κ ν τ) (st' : Stage σ' κ ν τ) : Prop where
  now : st.now = st'.now
  cache : Cache.Renamed ρ st.cache st'.cache
  log : st'.log.filter counts = st.log.filter counts
  rest : World st.rest st'.rest

namespace Stage.Renamed

variable {ρ} {counts : Log.Event → Bool} {World : σ → σ' → Prop}
variable {st : Stage σ κ ν τ} {st' : Stage σ' κ ν τ}

/-- Something is done to both caches alone. -/
lemma setCache (H : Renamed ρ counts World st st') {c c' : Cache κ ν τ}
    (hc : Cache.Renamed ρ c c') :
    Renamed ρ counts World { st with cache := c } { st' with cache := c' } :=
  ⟨H.now, hc, H.log, H.rest⟩

/-- Both report the same. -/
lemma record (H : Renamed ρ counts World st st') (e : Log.Event) :
    Renamed ρ counts World (st.record e) (st'.record e) :=
  { H with log := by simp only [Stage.record, List.filter_append, H.log] }

/-- An event that is recorded in both stages leaves them renamed, whether it counts or not, and
whether it is recorded at all. -/
lemma recordIf (H : Renamed ρ counts World st st') (b : Bool) (e : Log.Event) :
    Renamed ρ counts World (st.recordIf b e) (st'.recordIf b e) := by
  cases b with
  | true => exact H.record e
  | false => exact H

variable [DecidableEq κ]

/-- A value is put in both stages, each under its own name and at the same instant. -/
lemma put (H : Renamed ρ counts World st st') (k : κ) (v : ν) :
    Renamed ρ counts World (st.put k v) (st'.put (ρ.key k) (ρ.value v)) := by
  refine H.setCache ?_
  rw [← H.now]
  exact H.cache.put st.now k v

/-- A key is dropped in both stages. Whether this is recorded depends on what the caches say, which
is the same. -/
lemma invalidate (H : Renamed ρ counts World st st') (k : κ) :
    Renamed ρ counts World (st.invalidate k) (st'.invalidate (ρ.key k)) := by
  obtain ⟨hpresent, hcache⟩ := H.cache.invalidate k
  have hevent : st'.cache.invalidatedEvent (ρ.key k) = st.cache.invalidatedEvent k := by
    rw [Cache.invalidatedEvent, Cache.invalidatedEvent, H.cache.name, ρ.shown_key]
  simp only [Stage.invalidate, hpresent, hevent]
  exact (H.setCache hcache).recordIf _ _

/-- **A load ends** in both.

**Proof sketch.** The events that are recorded are the same, since what is shown of a key is not
changed by the renaming. The caches end the load alike. -/
theorem finish (H : Renamed ρ counts World st st') (l : Cache.Load κ) (r : Except Fault ν) :
    Renamed ρ counts World (st.finish l r) (st'.finish (ρ.load l) (r.map ρ.value)) := by
  obtain ⟨now', cache', log', rest'⟩ := st'
  obtain rfl : st.now = now' := H.now
  cases r with
  | ok v =>
    obtain ⟨hinstalled, hcache⟩ := H.cache.finish st.now l (some v)
    have hevent : cache'.loadedEvent (ρ.load l).key = st.cache.loadedEvent l.key := by
      rw [Cache.loadedEvent, Cache.loadedEvent, H.cache.name,
        show (ρ.load l).key = ρ.key l.key from rfl, ρ.shown_key]
    simp only [Stage.finish, Except.map, hevent]
    rw [show some (ρ.value v) = (some v).map ρ.value from rfl, hinstalled]
    exact (H.setCache hcache).recordIf _ _
  | error f =>
    obtain ⟨-, hcache⟩ := H.cache.finish st.now l none
    have hevent : cache'.loadFailedEvent (ρ.load l).key f = st.cache.loadFailedEvent l.key f := by
      rw [Cache.loadFailedEvent, Cache.loadFailedEvent, H.cache.name,
        show (ρ.load l).key = ρ.key l.key from rfl, ρ.shown_key]
    simp only [Stage.finish, Except.map, hevent]
    exact (H.setCache hcache).record _

variable [Add τ] [LE τ] [DecidableLE τ]

/-- A key is looked up in both stages with the same outcome, up to names, and both stages are left
renamed. -/
lemma lookup (H : Renamed ρ counts World st st') (k : κ) :
    (st'.lookup (ρ.key k)).1 = (st.lookup k).1.map ρ.value ∧
      Renamed ρ counts World (st.lookup k).2 (st'.lookup (ρ.key k)).2 := by
  obtain ⟨now', cache', log', rest'⟩ := st'
  obtain rfl : st.now = now' := H.now
  obtain ⟨hvalue, hcache⟩ := H.cache.lookup st.now k
  exact ⟨hvalue, H.setCache hcache⟩

omit [DecidableEq κ] in
/-- The keys are listed in both stages with the same outcome, up to names. -/
lemma keys (H : Renamed ρ counts World st st') :
    st'.keys.1 = st.keys.1.map ρ.key ∧ Renamed ρ counts World st.keys.2 st'.keys.2 := by
  obtain ⟨now', cache', log', rest'⟩ := st'
  obtain rfl : st.now = now' := H.now
  obtain ⟨hkeys, hcache⟩ := H.cache.keys st.now
  exact ⟨hkeys, H.setCache hcache⟩

/-- A key is asked for in both stages. They answer alike: with a value, with a load to join or to
start, or with neither. -/
lemma request (H : Renamed ρ counts World st st') (k : κ) (canLoad : Bool) :
    (st'.request (ρ.key k) canLoad).1 = ρ.access (st.request k canLoad).1 ∧
      Renamed ρ counts World (st.request k canLoad).2 (st'.request (ρ.key k) canLoad).2 := by
  obtain ⟨now', cache', log', rest'⟩ := st'
  obtain rfl : st.now = now' := H.now
  obtain ⟨haccess, hcache⟩ := H.cache.request st.now k canLoad
  exact ⟨haccess, H.setCache hcache⟩

/-- **An edit** of both. -/
theorem apply (H : Renamed ρ counts World st st') (e : Edit κ ν) :
    Renamed ρ counts World (st.apply e) (st'.apply (ρ.edit e)) := by
  cases e with
  | put k v => exact H.put k v
  | invalidate k => exact H.invalidate k
  | invalidateAll => exact { H with cache := H.cache.invalidateAll }
  | lookup k => exact (H.lookup k).2
  | keys => exact H.keys.2

end Stage.Renamed

end NodeKeeper
