import NodeKeeper.Proofs.Cache.Protocol

/-!
# Two caches with one history

An expired entry may be in the table or not, depending on whether somebody looked, and dropping all
keys counts a generation for those keys alone that still have an entry. Two caches to which the same
was done, but for looks, may therefore differ in their entries and generations. Nobody who uses them
can tell.

## Main definitions

* `Cache.Kindred` — two caches with one history, and with the same loads.
* `Stage.Consistent` — the looks at a cache in use agree with each other.
* `Stage.Agree` — two caches in use answer every look and every request alike.
* `Stage.Kindred` — two caches in use are kindred, and the world around them is the same.

## Main results

* `Cache.Kindred.lookup_left`, `Cache.Kindred.keys_left` — a look at one of them keeps two caches
  kindred.
* `Cache.Kindred.request` — they come to the same when a key is asked for.
* `Cache.Kindred.put`, `Cache.Kindred.invalidateAll`, `Cache.Kindred.close` and others — whatever
  is done to both keeps them kindred.
* `Stage.Kindred.agree` — they cannot be told apart.

## Implementation notes

The tables of shared loads are the same, so that only entries and generations have to be tied to the
history; that is what `Cache.Tells` does for each of the two.
-/

namespace NodeKeeper

variable {σ κ ν τ : Type} [DecidableEq κ] [Add τ] [LE τ] [DecidableLE τ]

/-- Two caches in use answer every look and every request alike. -/
structure Stage.Agree (st st' : Stage σ κ ν τ) : Prop where
  lookup : ∀ k, (st.lookup k).1 = (st'.lookup k).1
  contains : ∀ k, (st.contains k).1 = (st'.contains k).1
  /-- The same keys are listed, each as often, though maybe in another order. -/
  keys : st.keys.1.Perm st'.keys.1
  size : st.size.1 = st'.size.1
  request : ∀ k canLoad, (st.request k canLoad).1 = (st'.request k canLoad).1

/-- The looks at a cache in use agree with each other. -/
structure Stage.Consistent (st : Stage σ κ ν τ) : Prop where
  contains_iff : ∀ k, (st.contains k).1 = true ↔ k ∈ st.keys.1
  nodup_keys : st.keys.1.Nodup
  size_eq : st.size.1 = st.keys.1.length

/-- In a cache whose tables agree, so do the looks at it.

**Proof sketch.** A key is seen by a look at it if it has an entry that has not expired, and the
list of keys has the keys of just these entries. No key has two entries, so that it is listed
once. -/
lemma Stage.consistent_of_coherent {st : Stage σ κ ν τ} (H : st.cache.Coherent) :
    st.Consistent where
  contains_iff := fun k => by
    rw [show (st.contains k).1 = (st.cache.lookup st.now k).1.isSome from rfl,
      show st.keys.1 = (st.cache.keys st.now).1 from rfl, Cache.lookup_fst, Cache.mem_keys_iff]
    constructor
    · cases hk : st.cache.kept? k with
      | none => simp
      | some e =>
        obtain ⟨he, hek⟩ := Cache.kept?_eq_some hk
        intro h
        refine ⟨e, he, hek, ?_⟩
        by_contra hf
        simp [hf] at h
    · rintro ⟨e, he, rfl, hf⟩
      simp [Cache.kept?_key H.entry_unique he, hf]
  nodup_keys := H.entry_unique.sublist (List.filter_sublist.map _)
  size_eq := rfl

namespace Stage.Agree

variable {st st' st'' : Stage σ κ ν τ}

/-- Which of two stages is the first one does not matter for whether they agree. -/
lemma symm (H : Agree st st') : Agree st' st where
  lookup := fun k => (H.lookup k).symm
  contains := fun k => (H.contains k).symm
  keys := H.keys.symm
  size := H.size.symm
  request := fun k canLoad => (H.request k canLoad).symm

/-- Stages that agree with the same one agree with each other. -/
lemma trans (H : Agree st st') (H' : Agree st' st'') : Agree st st'' where
  lookup := fun k => (H.lookup k).trans (H'.lookup k)
  contains := fun k => (H.contains k).trans (H'.contains k)
  keys := H.keys.trans H'.keys
  size := H.size.trans H'.size
  request := fun k canLoad => (H.request k canLoad).trans (H'.request k canLoad)

end Stage.Agree

namespace Cache

/-- Two caches with one history, and with the same loads. -/
structure Kindred (now : τ) (c c' : Cache κ ν τ) : Prop where
  ttl : c.ttl = c'.ttl
  name : c.name = c'.name
  inFlight : c.inFlight = c'.inFlight
  nextLoad : c.nextLoad = c'.nextLoad
  /-- The loads on the way are the same, whatever generations they remember. -/
  loads : c.loads.map (fun l => (l.id, l.key)) = c'.loads.map fun l => (l.id, l.key)
  history : ∃ h, Tells c now h ∧ Tells c' now h

namespace Kindred

variable {now : τ} {c c' : Cache κ ν τ}

/-- Two caches in which nothing was done are kindred. -/
lemma new (ttl : Option τ) (name : String) (now : τ) :
    Kindred now ({ ttl, name } : Cache κ ν τ) { ttl, name } :=
  ⟨rfl, rfl, rfl, rfl, rfl, [], Tells.new ttl name now, Tells.new ttl name now⟩

/-- Nor does it matter for whether two caches are kindred: an expired entry may be left in either of
them. -/
lemma symm (H : Kindred now c c') : Kindred now c' c :=
  ⟨H.ttl.symm, H.name.symm, H.inFlight.symm, H.nextLoad.symm, H.loads.symm,
    let ⟨h, H₁, H₂⟩ := H.history
    ⟨h, H₂, H₁⟩⟩

/-- Time may pass. -/
lemma advance [IsTrans τ (· ≤ ·)] (H : Kindred now c c') {later : τ}
    (hle : now = later ∨ now ≤ later) : Kindred later c c' :=
  { H with
    history :=
      let ⟨h, H₁, H₂⟩ := H.history
      ⟨h, H₁.advance hle, H₂.advance hle⟩ }

/-! ### Looks -/

/-- A key shows the same in both. -/
lemma lookup_eq (H : Kindred now c c') (k : κ) : (c.lookup now k).1 = (c'.lookup now k).1 := by
  obtain ⟨h, H₁, H₂⟩ := H.history
  rw [H₁.lookup_eq, H₂.lookup_eq, H.ttl]

/-- Kindred caches share the same loads: they differ in expired entries alone, and these have
nothing to do with loads. -/
lemma flight?_eq (H : Kindred now c c') (k : κ) : c.flight? k = c'.flight? k := by
  rw [flight?, flight?, H.inFlight]

/-- Both list the same keys. -/
lemma keys_perm (H : Kindred now c c') : (c.keys now).1.Perm (c'.keys now).1 := by
  obtain ⟨h, H₁, H₂⟩ := H.history
  refine (List.perm_ext_iff_of_nodup H₁.nodup_keys H₂.nodup_keys).2 fun k => ?_
  rw [H₁.mem_keys, H₂.mem_keys, H.ttl]

/-- A key is looked up in one of them only. -/
lemma lookup_left (H : Kindred now c c') (k : κ) : Kindred now (c.lookup now k).2 c' where
  ttl := (ttl_lookup c now k).trans H.ttl
  name := by rw [lookup_snd, H.name]
  inFlight := (inFlight_lookup c now k).trans H.inFlight
  nextLoad := (nextLoad_lookup c now k).trans H.nextLoad
  loads := by rw [loads_lookup, H.loads]
  history :=
    let ⟨h, H₁, H₂⟩ := H.history
    ⟨h, H₁.lookup k, H₂⟩

/-- The keys are listed in one of them only. -/
lemma keys_left (H : Kindred now c c') : Kindred now (c.keys now).2 c' :=
  { H with
    history :=
      let ⟨h, H₁, H₂⟩ := H.history
      ⟨h, H₁.keys, H₂⟩ }

/-- A key that is looked up in both caches leaves them kindred. One of them may take an entry out
that the other one does not have any more. -/
lemma lookup (H : Kindred now c c') (k : κ) :
    Kindred now (c.lookup now k).2 (c'.lookup now k).2 :=
  ((H.lookup_left k).symm.lookup_left k).symm

/-! ### Changes -/

/-- A value that is put in both caches leaves them kindred: it stands in both, and whatever was
there before is gone. -/
lemma put (H : Kindred now c c') (k : κ) (v : ν) :
    Kindred now (c.put now k v) (c'.put now k v) :=
  { H with
    inFlight := by rw [Cache.put, Cache.put, install, install, supersede, supersede, H.inFlight]
    history :=
      let ⟨h, H₁, H₂⟩ := H.history
      ⟨_, H₁.put k v, H₂.put k v⟩ }

/-- A key that is dropped in both caches leaves them kindred, and so it is if only one of them had
an expired entry of it. -/
lemma invalidate (H : Kindred now c c') (k : κ) :
    Kindred now (c.invalidate k).2 (c'.invalidate k).2 :=
  { H with
    inFlight := by simp only [Cache.invalidate, dropEntry, supersede, H.inFlight]
    history :=
      let ⟨h, H₁, H₂⟩ := H.history
      ⟨_, H₁.invalidate k, H₂.invalidate k⟩ }

/-- Dropping all keys in both caches leaves them kindred: nothing is left in which they could
differ. -/
lemma invalidateAll (H : Kindred now c c') : Kindred now c.invalidateAll c'.invalidateAll where
  ttl := by simpa only [invalidateAll_eq] using H.ttl
  name := by simpa only [invalidateAll_eq] using H.name
  inFlight := by simp only [invalidateAll_eq]
  nextLoad := by simpa only [invalidateAll_eq] using H.nextLoad
  loads := by simpa only [invalidateAll_eq] using H.loads
  history :=
    let ⟨h, H₁, H₂⟩ := H.history
    ⟨_, H₁.invalidateAll, H₂.invalidateAll⟩

/-! ### Loads -/

/-- A load that is started in both caches gets the same number in both, and the same generation to
remember.

**Proof sketch.** Both caches are told of by the same history, which is continued by the same
event. -/
lemma startLoad (H : Kindred now c c') {k : κ} (he : c.kept? k = none) (he' : c'.kept? k = none)
    (hf : c.flight? k = none) : Kindred now (c.startLoad k) (c'.startLoad k) where
  ttl := H.ttl
  name := H.name
  inFlight := by simp only [Cache.startLoad, H.inFlight, H.nextLoad]
  nextLoad := by simp only [Cache.startLoad, H.nextLoad]
  loads := by simp only [Cache.startLoad, List.map_cons, H.loads, H.nextLoad]
  history := by
    obtain ⟨h, H₁, H₂⟩ := H.history
    have hf' := hf
    rw [H.flight?_eq] at hf'
    refine ⟨_, H₁.startLoad he (flight?_eq_none.1 hf), ?_⟩
    rw [H.nextLoad]
    exact H₂.startLoad he' (flight?_eq_none.1 hf')

/-- **Asking for a key** comes to the same in both.

**Proof sketch.** Both caches are looked at first, and show the same by `lookup_eq`. If nothing is
shown, the next question is whether a load is shared, which is told alike; and if none is, both
start one, of the same number, or neither does. -/
theorem request (H : Kindred now c c') (k : κ) (canLoad : Bool) :
    (c.request now k canLoad).1 = (c'.request now k canLoad).1 ∧
      Kindred now (c.request now k canLoad).2 (c'.request now k canLoad).2 := by
  have hlook := H.lookup k
  have hkept : (c.lookup now k).1 = none → (c.lookup now k).2.kept? k = none :=
    kept?_lookup_of_none
  have hkept' : (c'.lookup now k).1 = none → (c'.lookup now k).2.kept? k = none :=
    kept?_lookup_of_none
  have hflight := flight?_lookup c now k k
  have hnext := hlook.nextLoad
  have hshared := hlook.flight?_eq k
  have hsame := H.lookup_eq k
  unfold Cache.request
  revert hlook hkept hkept' hflight hnext hshared hsame
  rcases c.lookup now k with ⟨v, d⟩
  rcases c'.lookup now k with ⟨v', d'⟩
  rintro hlook hkept hkept' hflight hnext hshared rfl
  cases v with
  | some v => exact ⟨rfl, hlook⟩
  | none =>
    dsimp only at hlook hkept hkept' hnext hshared ⊢
    rw [← hshared]
    cases hf : d.flight? k with
    | some id => exact ⟨rfl, hlook⟩
    | none =>
      cases canLoad with
      | true => exact ⟨congrArg Access.started hnext, hlook.startLoad (hkept rfl) (hkept' rfl) hf⟩
      | false => exact ⟨rfl, hlook⟩

/-- The load of a number is one of the same key in both. -/
lemma find?_load (H : Kindred now c c') (l : Nat) :
    (c.loads.find? fun m => m.id == l).map (fun m => (m.id, m.key)) =
      (c'.loads.find? fun m => m.id == l).map fun m => (m.id, m.key) := by
  have hfind (ls : List (Load κ)) : (ls.find? fun m => m.id == l).map (fun m => (m.id, m.key)) =
      (ls.map fun m => (m.id, m.key)).find? fun p => p.1 == l := by
    rw [List.find?_map]
    rfl
  rw [hfind, hfind, H.loads]

/-- A load that ends in both caches installs its value in both, or in neither, since it remembers
the same generation in both.

**Proof sketch.** The tables on which both agree lose the same rows, as the loads have the same
number and key. The rest is told by the history, which has the same end of a load in both. -/
lemma finish (H : Kindred now c c') {load load' : Load κ} (hl : load ∈ c.loads)
    (hl' : load' ∈ c'.loads) (hid : load.id = load'.id) (hkey : load.key = load'.key)
    (value : Option ν) : Kindred now (c.finish now load value).2 (c'.finish now load' value).2 where
  ttl := by rw [ttl_finish, ttl_finish, H.ttl]
  name := by
    rw [finish_snd, finish_snd c']
    exact H.name
  inFlight := by
    rw [finish_snd, finish_snd c']
    simp only [dropLoad, H.inFlight, hid, hkey]
  nextLoad := by rw [nextLoad_finish, nextLoad_finish, H.nextLoad]
  loads := by
    have hfilter (ls : List (Load κ)) (i : Nat) :
        (ls.filter fun m => m.id ≠ i).map (fun m => (m.id, m.key)) =
          (ls.map fun m => (m.id, m.key)).filter fun p => p.1 ≠ i := by
      rw [List.filter_map]
      rfl
    rw [loads_finish, loads_finish, hfilter, hfilter, H.loads, hid]
  history := by
    obtain ⟨h, H₁, H₂⟩ := H.history
    refine ⟨_, H₁.finish hl value, ?_⟩
    rw [hid, hkey]
    exact H₂.finish hl' value

/-- **A load ends** in both.

**Proof sketch.** The load is looked for by its number, and is found in both caches or in
neither. -/
theorem close (H : Kindred now c c') (l : Nat) (value : Option ν) :
    Kindred now (c.close now l value) (c'.close now l value) := by
  have hfind := H.find?_load l
  unfold Cache.close
  cases hload : c.loads.find? fun m => m.id == l with
  | none =>
    rw [hload, Option.map_none, eq_comm, Option.map_eq_none_iff] at hfind
    rw [hfind]
    exact H
  | some load =>
    rw [hload, Option.map_some, eq_comm, Option.map_eq_some_iff] at hfind
    obtain ⟨load', hload', hsame⟩ := hfind
    obtain ⟨hid, hkey⟩ := Prod.mk.inj hsame
    rw [hload']
    exact H.finish (List.mem_of_find?_eq_some hload) (List.mem_of_find?_eq_some hload') hid.symm
      hkey.symm value

end Kindred

end Cache

/-! ## Caches in use -/

/-- Two caches in use are kindred, and the world around them is the same. -/
structure Stage.Kindred (st st' : Stage σ κ ν τ) : Prop where
  now : st.now = st'.now
  rest : st.rest = st'.rest
  cache : Cache.Kindred st.now st.cache st'.cache

namespace Stage.Kindred

variable {st st' : Stage σ κ ν τ}

/-- Which of two kindred stages is the first one does not matter, as for their caches. -/
lemma symm (H : st.Kindred st') : st'.Kindred st where
  now := H.now.symm
  rest := H.rest.symm
  cache := by
    rw [← H.now]
    exact H.cache.symm

/-- **Nobody can tell** two kindred caches apart.

**Proof sketch.** Everything that can be asked of a cache is settled by its history, which the two
have in common. -/
theorem agree (H : st.Kindred st') : st.Agree st' := by
  obtain ⟨hnow, -, H⟩ := H
  have hlookup (k : κ) : (st.lookup k).1 = (st'.lookup k).1 := by
    rw [show (st'.lookup k).1 = (st'.cache.lookup st'.now k).1 from rfl, ← hnow]
    exact H.lookup_eq k
  have hkeys : st.keys.1.Perm st'.keys.1 := by
    rw [show st'.keys.1 = (st'.cache.keys st'.now).1 from rfl, ← hnow]
    exact H.keys_perm
  refine ⟨hlookup, fun k => congrArg Option.isSome (hlookup k), hkeys, hkeys.length_eq,
    fun k canLoad => ?_⟩
  rw [show (st'.request k canLoad).1 = (st'.cache.request st'.now k canLoad).1 from rfl, ← hnow]
  exact (H.request k canLoad).1

/-- A key is asked for in both. -/
lemma request (H : st.Kindred st') (k : κ) (canLoad : Bool) :
    (st.request k canLoad).1 = (st'.request k canLoad).1 ∧
      (st.request k canLoad).2.Kindred (st'.request k canLoad).2 := by
  refine ⟨H.agree.request k canLoad, H.now, H.rest, ?_⟩
  have hcache := (H.cache.request k canLoad).2
  simp only [Stage.request]
  rwa [← H.now]

end Stage.Kindred

end NodeKeeper
