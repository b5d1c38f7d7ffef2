import Mathlib.Data.List.Find
import NodeKeeper.Proofs.Session.Conduct

/-!
# What one key has of a cache

A cache is one table for all its keys. What belongs to one key is a cache of its own, in which only
this key occurs and the loads are numbered without the others. Whatever is done about the key is
done to both; whatever is done about another one is not noticed in the second one; and what is done
to all keys at once is done to both again.

## Main definitions

* `Cache.Sole` — a cache holds what one key has of another cache.
* `Stage.Sole` — the same for caches in use.
* `Edit.touches` — an edit is about a key, or about all of them.

## Main results

* `Cache.Sole.lookup`, `Cache.Sole.put`, `Cache.Sole.invalidateAll` and others — what is done to
  both.
* `Cache.Sole.lookup_ne`, `Cache.Sole.put_ne` and others — what is done about another key.
* `Cache.Sole.startLoad`, `Cache.Sole.close` — the start and the end of a load of the key.
* `Stage.Sole.foldl_apply` — edits, with and without those about other keys.

## Implementation notes

Nothing is said of the generations of other keys: those of the second cache belong to no load.
-/

namespace NodeKeeper

/-! ## Edits -/

/-- The edit is about the key, or about all keys at once. -/
def Edit.touches {κ ν : Type} [DecidableEq κ] (k : κ) : Edit κ ν → Bool
  | put j _ | invalidate j | lookup j => j = k
  | invalidateAll | keys => true

namespace Cache

variable {κ ν τ : Type} [DecidableEq κ]

/-- A cache holds what one key has of another cache, where the load of a number goes by a number of
its own. -/
structure Sole (k : κ) (ρ : Nat → Nat) (c c' : Cache κ ν τ) : Prop where
  ttl : c'.ttl = c.ttl
  name : c'.name = c.name
  entries : c'.entries = c.entries.filter fun e => e.key = k
  inFlight : c'.inFlight = (c.inFlight.filter fun p => p.1 = k).map (Prod.map id ρ)
  generation : c'.generation k = c.generation k
  loads : c'.loads = (c.loads.filter fun l => l.key = k).map fun l => { l with id := ρ l.id }
  nextLoad : c'.nextLoad = ρ c.nextLoad

namespace Sole

variable {k j : κ} {ρ ρ' : Nat → Nat} {c c' : Cache κ ν τ}

/-- In a cache in which nothing was done no key has anything. -/
lemma new (k : κ) (hρ : ρ 0 = 0) (ttl : Option τ) (name : String) :
    Sole k ρ ({ ttl, name } : Cache κ ν τ) { ttl, name } :=
  ⟨rfl, rfl, rfl, rfl, rfl, rfl, hρ.symm⟩

/-- The numbers of loads that were never started do not matter.

**Proof sketch.** Only numbers of loads on the books are ever looked at, and these have been
started. -/
lemma renumber (H : Sole k ρ c c') (hc : c.Coherent) (hρ : ∀ l ≤ c.nextLoad, ρ' l = ρ l) :
    Sole k ρ' c c' :=
  { H with
    inFlight := by
      rw [H.inFlight]
      refine List.map_congr_left fun p hp => ?_
      obtain ⟨l, hl, hid, -⟩ := (hc.flight_iff p.1 p.2).1 (List.mem_filter.1 hp).1
      have hlt := hc.load_lt l hl
      rw [Prod.map, Prod.map, hρ p.2 (by omega)]
    loads := by
      rw [H.loads]
      refine List.map_congr_left fun l hl => ?_
      have hlt := hc.load_lt l (List.mem_filter.1 hl).1
      rw [hρ l.id (by omega)]
    nextLoad := by rw [H.nextLoad, hρ _ (Nat.le_refl _)] }

/-! ### Questions -/

/-- What is kept at the key is kept in the cache without the other keys. -/
lemma kept? (H : Sole k ρ c c') : c'.kept? k = c.kept? k := by
  rw [Cache.kept?, Cache.kept?, H.entries, List.find?_filter]
  congr 1
  funext e
  by_cases he : e.key = k <;> simp [he]

/-- The load that is shared at the key is shared there too, under the number that it has among the
loads of the key.

**Proof sketch.** The induction is on the shared loads. Those of other keys are struck out, and were
passed over anyway. -/
lemma flight? (H : Sole k ρ c c') : c'.flight? k = (c.flight? k).map ρ := by
  rw [Cache.flight?, Cache.flight?, H.inFlight]
  generalize c.inFlight = ps
  induction ps with
  | nil => rfl
  | cons p ps ih =>
    obtain ⟨j, l⟩ := p
    by_cases hj : j = k
    · subst hj
      simp
    · have hj' : (k == j) = false := by simpa using Ne.symm hj
      rw [List.filter_cons_of_neg (by simpa using hj), ih, List.lookup_cons, hj']

/-- Entries expire alike in both caches, which have the same lifetime of values. -/
lemma isFresh [Add τ] [LE τ] [DecidableLE τ] (H : Sole k ρ c c') (now : τ) :
    c'.isFresh now = c.isFresh now := by
  funext e
  rw [Cache.isFresh, Cache.isFresh, H.ttl]

/-! ### Smaller changes -/

/-- Entries that are taken out of the one cache are taken out of the other one, if they are found
there. -/
lemma filterEntries (H : Sole k ρ c c') (p : Entry κ ν τ → Bool) :
    Sole k ρ { c with entries := c.entries.filter p }
      { c' with entries := c'.entries.filter p } :=
  { H with
    entries := by
      rw [H.entries, List.filter_filter, List.filter_filter]
      exact List.filter_congr fun e _ => Bool.and_comm _ _ }

/-- The entry of the key is taken out of both caches. -/
lemma dropEntry (H : Sole k ρ c c') : Sole k ρ (c.dropEntry k) (c'.dropEntry k) :=
  H.filterEntries _

/-- An entry of another key that is taken out is not noticed in the cache without the other keys. -/
lemma dropEntry_ne (H : Sole k ρ c c') (hj : j ≠ k) : Sole k ρ (c.dropEntry j) c' :=
  { H with
    entries := by
      rw [H.entries, Cache.dropEntry, List.filter_filter]
      refine List.filter_congr fun e _ => ?_
      by_cases he : e.key = k <;> simp [he, Ne.symm hj] }

/-- An entry is placed among those of its key as among all. -/
lemma filter_placeEntry (e : Entry κ ν τ) (es : List (Entry κ ν τ)) :
    (placeEntry e es).filter (fun x => x.key = e.key) =
      placeEntry e (es.filter fun x => x.key = e.key) := by
  induction es with
  | nil => simp [placeEntry]
  | cons x es ih =>
    by_cases hx : x.key = e.key
    · simp [placeEntry, hx]
    · simp [placeEntry, hx, ih]

/-- An entry of another key that finds its place, wherever that is, leaves the entries of the key as
they were. -/
lemma filter_placeEntry_ne {e : Entry κ ν τ} (he : e.key ≠ k) (es : List (Entry κ ν τ)) :
    (placeEntry e es).filter (fun x => x.key = k) = es.filter fun x => x.key = k := by
  induction es with
  | nil => simp [placeEntry, he]
  | cons x es ih =>
    rw [placeEntry]
    split
    · next hx => simp [hx, he]
    · rw [List.filter_cons, List.filter_cons, ih]

/-- A value is installed at the key in both caches. -/
lemma install (H : Sole k ρ c c') (now : τ) (v : ν) :
    Sole k ρ (c.install now k v) (c'.install now k v) :=
  { H with
    entries := by
      rw [Cache.install, Cache.install, H.entries]
      exact (filter_placeEntry ⟨k, v, now⟩ c.entries).symm }

/-- A value that is installed at another key is not noticed. -/
lemma install_ne (H : Sole k ρ c c') (hj : j ≠ k) (now : τ) (v : ν) :
    Sole k ρ (c.install now j v) c' :=
  { H with entries := by rw [H.entries, Cache.install, filter_placeEntry_ne hj] }

/-- The loads of the key are superseded in both caches, and its generation goes up in both. -/
lemma supersede (H : Sole k ρ c c') : Sole k ρ (c.supersede k) (c'.supersede k) :=
  { H with
    generation := by simp [H.generation]
    inFlight := by
      have hnone (ps : List (κ × Nat)) :
          ((ps.filter fun p => p.1 = k).map (Prod.map id ρ)).filter (fun p => p.1 ≠ k) = [] := by
        simp [List.filter_eq_nil_iff]
      simp only [Cache.supersede]
      rw [H.inFlight, hnone, List.filter_filter]
      simp }

/-- That the loads of another key are superseded is not noticed: generations count for each key
apart. -/
lemma supersede_ne (H : Sole k ρ c c') (hj : j ≠ k) : Sole k ρ (c.supersede j) c' :=
  { H with
    generation := by rw [H.generation, generation_supersede, if_neg (Ne.symm hj)]
    inFlight := by
      rw [H.inFlight, Cache.supersede, List.filter_filter]
      congr 1
      refine List.filter_congr fun p _ => ?_
      by_cases hp : p.1 = k <;> simp [hp, Ne.symm hj] }

/-! ### Changes from outside -/

/-- A value is put at the key in both caches. -/
lemma put (H : Sole k ρ c c') (now : τ) (v : ν) : Sole k ρ (c.put now k v) (c'.put now k v) :=
  H.supersede.install now v

/-- A value that is put at another key is not noticed. -/
lemma put_ne (H : Sole k ρ c c') (hj : j ≠ k) (now : τ) (v : ν) : Sole k ρ (c.put now j v) c' :=
  (H.supersede_ne hj).install_ne hj now v

/-- The key is dropped in both caches. -/
lemma invalidate (H : Sole k ρ c c') : Sole k ρ (c.invalidate k).2 (c'.invalidate k).2 :=
  H.supersede.dropEntry

/-- That another key is dropped is not noticed. -/
lemma invalidate_ne (H : Sole k ρ c c') (hj : j ≠ k) : Sole k ρ (c.invalidate j).2 c' :=
  (H.supersede_ne hj).dropEntry_ne hj

/-- **All keys are dropped** in both. The key is superseded as often in one as in the other.

**Proof sketch.** A key is superseded as often as it occurs among entries and shared loads. To
strike out the other keys does not change how often this one occurs. -/
lemma invalidateAll (H : Sole k ρ c c') : Sole k ρ c.invalidateAll c'.invalidateAll := by
  rw [invalidateAll_eq, invalidateAll_eq]
  refine { H with entries := rfl, inFlight := rfl, generation := ?_ }
  have hcount {β : Type} (key : β → κ) (xs : List β) :
      ((xs.filter fun x => key x = k).map key).count k = (xs.map key).count k := by
    have hmap : (xs.filter fun x => key x = k).map key = (xs.map key).filter fun j => j = k := by
      rw [List.filter_map]
      rfl
    rw [hmap, List.count_filter (by simp)]
  have hflights : (c'.inFlight.map Prod.fst).count k = (c.inFlight.map Prod.fst).count k := by
    rw [H.inFlight, List.map_map]
    exact hcount Prod.fst c.inFlight
  dsimp only
  rw [H.generation, List.count_append, List.count_append, hflights, H.entries, hcount]

/-! ### Looking -/

section Looking

variable [Add τ] [LE τ] [DecidableLE τ]

/-- The keys are listed in both caches, and all expired entries are taken out of both. -/
lemma keys (H : Sole k ρ c c') (now : τ) : Sole k ρ (c.keys now).2 (c'.keys now).2 := by
  rw [Cache.keys, Cache.keys, H.isFresh]
  exact H.filterEntries _

/-- The key is listed in both or in neither. -/
lemma mem_keys_iff (H : Sole k ρ c c') (now : τ) : k ∈ (c'.keys now).1 ↔ k ∈ (c.keys now).1 := by
  rw [Cache.mem_keys_iff, Cache.mem_keys_iff, H.isFresh, H.entries]
  refine exists_congr fun e => ?_
  simp only [List.mem_filter, decide_eq_true_eq]
  tauto

/-- The key is looked up in both caches, with the same outcome.

**Proof sketch.** The entry of the key and its age are the same, so both caches show the same; if
they show nothing, both drop it. -/
lemma lookup (H : Sole k ρ c c') (now : τ) :
    (c'.lookup now k).1 = (c.lookup now k).1 ∧
      Sole k ρ (c.lookup now k).2 (c'.lookup now k).2 := by
  have hfst : (c'.lookup now k).1 = (c.lookup now k).1 := by
    rw [lookup_fst, lookup_fst, H.kept?, H.isFresh]
  refine ⟨hfst, ?_⟩
  cases hv : (c.lookup now k).1 with
  | none =>
    rw [lookup_snd_of_none hv, lookup_snd_of_none (hfst.trans hv)]
    exact H.dropEntry
  | some v =>
    rw [lookup_snd_of_some hv, lookup_snd_of_some (hfst.trans hv)]
    exact H

/-- That another key is looked up is not noticed, although an expired entry of that key may be taken
out. -/
lemma lookup_ne (H : Sole k ρ c c') (hj : j ≠ k) (now : τ) : Sole k ρ (c.lookup now j).2 c' := by
  cases hv : (c.lookup now j).1 with
  | none =>
    rw [lookup_snd_of_none hv]
    exact H.dropEntry_ne hj
  | some v =>
    rw [lookup_snd_of_some hv]
    exact H

end Looking

/-! ### Loads -/

/-- A load of the key starts in both; it takes the next number in both. -/
lemma startLoad (H : Sole k ρ c c') (hρ : ρ (c.nextLoad + 1) = ρ c.nextLoad + 1) :
    Sole k ρ (c.startLoad k) (c'.startLoad k) where
  ttl := H.ttl
  name := H.name
  entries := H.entries
  generation := H.generation
  inFlight := by simp [Cache.startLoad, H.inFlight, H.nextLoad]
  loads := by simp [Cache.startLoad, H.loads, H.nextLoad, H.generation]
  nextLoad := by simp only [Cache.startLoad, H.nextLoad, hρ]

/-- A load of another key starts, and takes no number of those of this key. -/
lemma startLoad_ne (H : Sole k ρ c c') (hj : j ≠ k) (hρ : ρ (c.nextLoad + 1) = ρ c.nextLoad) :
    Sole k ρ (c.startLoad j) c' where
  ttl := H.ttl
  name := H.name
  entries := H.entries
  generation := H.generation
  inFlight := by simp [Cache.startLoad, H.inFlight, hj]
  loads := by simp [Cache.startLoad, H.loads, hj]
  nextLoad := by simp only [Cache.startLoad, H.nextLoad, hρ]

/-- A load of the key is taken off the books of both caches. In the second one it is known by its
number among the loads of the key, and no other load of the key has this number.

**Proof sketch.** Rows of the key are renumbered one by one, so that striking out the load in the
first cache and its renumbered row in the second one leaves corresponding rows. Rows of other keys
do not appear in the second cache. -/
lemma dropLoad (H : Sole k ρ c c') {l : Load κ} (hl : l.key = k)
    (hinj : ∀ m ∈ c.loads, m.key = k → (ρ m.id = ρ l.id ↔ m.id = l.id))
    (hc : c.Coherent) : Sole k ρ (c.dropLoad l) (c'.dropLoad { l with id := ρ l.id }) :=
  { H with
    inFlight := by
      simp only [Cache.dropLoad]
      rw [H.inFlight, List.filter_map, List.filter_filter, List.filter_filter]
      congr 1
      refine List.filter_congr fun p hp => ?_
      obtain ⟨j, id⟩ := p
      obtain ⟨m, hm, rfl, rfl, -⟩ := (hc.flight_iff j id).1 hp
      by_cases hm' : m.key = k
      · simp [hm', hl, hinj m hm hm']
      · simp [hm', hl]
    loads := by
      simp only [Cache.dropLoad]
      rw [H.loads, List.filter_map, List.filter_filter, List.filter_filter]
      congr 1
      refine List.filter_congr fun m hm => ?_
      by_cases hm' : m.key = k
      · simp [hm', hinj m hm hm']
      · simp [hm'] }

/-- That a load of another key is taken off the books is not noticed: no load of the key has its
number.

**Proof sketch.** The rows that are struck out belong to another key, and the second cache never had
them. -/
lemma dropLoad_ne (H : Sole k ρ c c') {l : Load κ} (hl : l.key ≠ k)
    (hother : ∀ m ∈ c.loads, m.id = l.id → m.key ≠ k) : Sole k ρ (c.dropLoad l) c' :=
  { H with
    inFlight := by
      rw [H.inFlight, Cache.dropLoad, List.filter_filter]
      congr 1
      refine List.filter_congr fun p _ => ?_
      by_cases hp : p.1 = k
      · have hne : p ≠ (l.key, l.id) := fun h => hl (by rw [← hp, h])
        simp [hp, hne]
      · simp [hp]
    loads := by
      rw [H.loads, Cache.dropLoad, List.filter_filter]
      congr 1
      refine List.filter_congr fun m hm => ?_
      by_cases hm' : m.key = k
      · have hne : m.id ≠ l.id := fun h => hother m hm h hm'
        simp [hm', hne]
      · simp [hm'] }

/-- A load of the key ends in both caches. Its value is installed in both or in neither, as the
generations of the key are the same.

**Proof sketch.** Both caches compare the same generations, and then install the same value, or
none. -/
lemma finish (H : Sole k ρ c c') {l : Load κ} (hl : l.key = k)
    (hinj : ∀ m ∈ c.loads, m.key = k → (ρ m.id = ρ l.id ↔ m.id = l.id))
    (hc : c.Coherent) (now : τ) (value : Option ν) :
    Sole k ρ (c.finish now l value).2 (c'.finish now { l with id := ρ l.id } value).2 := by
  subst hl
  unfold Cache.finish
  cases value with
  | none => exact H.dropLoad rfl hinj hc
  | some v =>
    dsimp only
    rw [H.generation]
    split
    · exact { H.dropLoad rfl hinj hc with entries := (H.install now v).entries }
    · exact H.dropLoad rfl hinj hc

/-- That a load of another key ends is not noticed, whatever it brings. -/
lemma finish_ne (H : Sole k ρ c c') {l : Load κ} (hl : l.key ≠ k)
    (hother : ∀ m ∈ c.loads, m.id = l.id → m.key ≠ k) (now : τ) (value : Option ν) :
    Sole k ρ (c.finish now l value).2 c' := by
  unfold Cache.finish
  cases value with
  | none => exact H.dropLoad_ne hl hother
  | some v =>
    dsimp only
    split
    · exact { H.dropLoad_ne hl hother with entries := (H.install_ne hl now v).entries }
    · exact H.dropLoad_ne hl hother

/-- **A load of the key ends** in both.

**Proof sketch.** The load is looked for by its number. As numbers of loads of the key are told
apart after renumbering, it is found in both caches or in neither. -/
theorem close (H : Sole k ρ c c') (hc : c.Coherent) {l : Nat}
    (hl : ∀ m ∈ c.loads, m.id = l → m.key = k)
    (hinj : ∀ m ∈ c.loads, m.key = k → (ρ m.id = ρ l ↔ m.id = l)) (now : τ) (value : Option ν) :
    Sole k ρ (c.close now l value) (c'.close now (ρ l) value) := by
  have hfind : (c'.loads.find? fun m => m.id == ρ l) =
      (c.loads.find? fun m => m.id == l).map fun m => { m with id := ρ m.id } := by
    rw [H.loads, List.find?_map, List.find?_filter]
    refine congrArg (Option.map _) (List.find?_congr fun m hm => ?_)
    rw [Bool.eq_iff_iff]
    by_cases hm' : m.key = k
    · simp [hm', hinj m hm hm']
    · have hne : m.id ≠ l := fun h => hm' (hl m hm h)
      simp [hm', hne]
  unfold Cache.close
  rw [hfind]
  cases hload : c.loads.find? fun m => m.id == l with
  | none => exact H
  | some load =>
    obtain rfl : load.id = l := by simpa using List.find?_some hload
    exact H.finish (hl load (List.mem_of_find?_eq_some hload) rfl) hinj hc now value

/-- **A load of another key ends.** -/
theorem close_ne (H : Sole k ρ c c') {l : Nat} (hl : ∀ m ∈ c.loads, m.id = l → m.key ≠ k)
    (now : τ) (value : Option ν) : Sole k ρ (c.close now l value) c' := by
  unfold Cache.close
  split
  · next load hload =>
    obtain rfl : load.id = l := by simpa using List.find?_some hload
    exact H.finish_ne (hl load (List.mem_of_find?_eq_some hload) rfl) hl now value
  · exact H

end Sole

end Cache

/-! ## Caches in use -/

variable {σ κ ν τ α : Type} [DecidableEq κ]

/-- The cache in use holds what one key has of another one, at the same time and in the same
world. -/
structure Stage.Sole (k : κ) (ρ : Nat → Nat) (st st' : Stage σ κ ν τ) : Prop where
  now : st'.now = st.now
  rest : st'.rest = st.rest
  cache : st.cache.Sole k ρ st'.cache

namespace Stage.Sole

variable [Add τ] [LE τ] [DecidableLE τ] [Keylike κ]
variable {k : κ} {ρ : Nat → Nat} {st st' : Stage σ κ ν τ}

/-- An edit about the key, or about all keys, is made of both.

**Proof sketch.** The cases are those of the edit. The key of the edit is this one, or the edit is
about all keys. -/
lemma apply (H : st.Sole k ρ st') {e : Edit κ ν} (he : e.touches k = true) :
    (st.apply e).Sole k ρ (st'.apply e) := by
  refine ⟨by simp [H.now], by simp [H.rest], ?_⟩
  cases e with
  | put j v =>
    obtain rfl : j = k := by simpa [Edit.touches] using he
    simp only [Stage.apply, Stage.put, H.now]
    exact H.cache.put st.now v
  | invalidate j =>
    obtain rfl : j = k := by simpa [Edit.touches] using he
    rw [Stage.apply, Stage.apply, cache_invalidate, cache_invalidate]
    exact H.cache.invalidate
  | lookup j =>
    obtain rfl : j = k := by simpa [Edit.touches] using he
    simp only [Stage.apply, Stage.lookup, H.now]
    exact (H.cache.lookup st.now).2
  | invalidateAll => exact H.cache.invalidateAll
  | keys =>
    simp only [Stage.apply, Stage.keys, H.now]
    exact H.cache.keys st.now

/-- An edit about another key. -/
lemma apply_ne (H : st.Sole k ρ st') {e : Edit κ ν} (he : e.touches k = false) :
    (st.apply e).Sole k ρ st' := by
  refine ⟨by simp [H.now], by simp [H.rest], ?_⟩
  cases e with
  | put j v => exact H.cache.put_ne (by simpa [Edit.touches] using he) st.now v
  | invalidate j =>
    rw [Stage.apply, cache_invalidate]
    exact H.cache.invalidate_ne (by simpa [Edit.touches] using he)
  | lookup j => exact H.cache.lookup_ne (by simpa [Edit.touches] using he) st.now
  | invalidateAll | keys => exact absurd he (by simp [Edit.touches])

/-- Edits, with and without those about other keys.

**Proof sketch.** The induction is on the edits. One about the key is made of both, and one about
another key of the first alone, where it does not matter. -/
lemma foldl_apply (H : st.Sole k ρ st') (es : List (Edit κ ν)) :
    Stage.Sole k ρ (es.foldl Stage.apply st)
      ((es.filter fun e => e.touches k).foldl Stage.apply st') := by
  induction es generalizing st st' with
  | nil => exact H
  | cons e es ih =>
    cases he : e.touches k with
    | true =>
      rw [List.filter_cons_of_pos he]
      exact ih (H.apply he)
    | false =>
      rw [List.filter_cons_of_neg (by simp [he])]
      exact ih (H.apply_ne he)

end Stage.Sole

end NodeKeeper
