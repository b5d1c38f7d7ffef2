import Mathlib.Data.List.Nodup
import NodeKeeper.Cache.Stage

/-!
# What the operations of a cache do to its tables

A cache has a table of entries and a table of the loads that are shared, and it counts how often the
loads of a key were superseded. Every operation is described by what it does to these three.

## Main definitions

* `Cache.Sheds` — a cache has lost nothing but entries that have expired.

## Main results

* `Cache.kept?_install`, `Cache.kept?_dropEntry` — the entries after a change.
* `Cache.sheds_lookup`, `Cache.sheds_keys` — a look at a cache sheds expired entries alone.
* `Cache.request_cases` — what asking for a key comes to.
* `Cache.invalidateAll_eq` — dropping all keys empties both tables.
* `Cache.kept?_finish` — where an entry comes from that is there once a load has ended.
-/

namespace NodeKeeper.Cache

variable {κ ν τ : Type}

/-! ## Shedding -/

section Shedding

variable [Add τ] [LE τ] [DecidableLE τ]

/-- A cache has lost nothing but entries that have expired. -/
def Sheds (c : Cache κ ν τ) (now : τ) (c' : Cache κ ν τ) : Prop :=
  ∃ p : Entry κ ν τ → Bool, c' = { c with entries := c.entries.filter p } ∧
    ∀ e ∈ c.entries, p e = false → c.isFresh now e = false

/-- A cache sheds nothing if nothing happens to it. -/
lemma Sheds.refl (c : Cache κ ν τ) (now : τ) : c.Sheds now c :=
  ⟨fun _ => true, by simp, by simp⟩

/-- Listing the keys sheds expired entries alone. -/
lemma sheds_keys (c : Cache κ ν τ) (now : τ) : c.Sheds now (c.keys now).2 :=
  ⟨c.isFresh now, rfl, fun _ _ h => h⟩

/-- The keys that a cache lists are those of its entries that are fresh at the time. -/
lemma mem_keys_iff (c : Cache κ ν τ) (now : τ) (k : κ) :
    k ∈ (c.keys now).1 ↔ ∃ e ∈ c.entries, e.key = k ∧ c.isFresh now e = true := by
  simp only [keys, List.mem_map, List.mem_filter]
  exact ⟨fun ⟨e, ⟨he, hf⟩, hk⟩ => ⟨e, he, hk, hf⟩, fun ⟨e, he, hk, hf⟩ => ⟨e, ⟨he, hf⟩, hk⟩⟩

end Shedding

variable [DecidableEq κ]

/-! ## Entries -/

/-- An entry that is found at a key is one of the entries, and it is an entry of this key. -/
lemma kept?_eq_some {c : Cache κ ν τ} {k : κ} {e : Entry κ ν τ} (h : c.kept? k = some e) :
    e ∈ c.entries ∧ e.key = k :=
  ⟨List.mem_of_find?_eq_some h, by simpa using List.find?_some h⟩

/-- Nothing is found at a key if and only if no entry is one of this key. -/
lemma kept?_eq_none {c : Cache κ ν τ} {k : κ} :
    c.kept? k = none ↔ ∀ e ∈ c.entries, e.key ≠ k := by
  simp [kept?]

/-- With one entry for each key, the entry of a key is the one that the table has. -/
lemma kept?_key {c : Cache κ ν τ} (hu : (c.entries.map Entry.key).Nodup) {e : Entry κ ν τ}
    (he : e ∈ c.entries) : c.kept? e.key = some e := by
  cases hf : c.kept? e.key with
  | none => exact absurd rfl (kept?_eq_none.1 hf e he)
  | some e' =>
    obtain ⟨he', hk⟩ := kept?_eq_some hf
    rw [List.inj_on_of_nodup_map hu he' he hk]

/-- Once an entry has found its place it is what is found at its key, and at the other keys the same
is found as before.

**Proof sketch.** The induction is on the entries. The place of the entry is that of its key, or
behind all others if there is none. -/
lemma find?_placeEntry (e : Entry κ ν τ) (k : κ) (es : List (Entry κ ν τ)) :
    (placeEntry e es).find? (fun x => x.key = k) =
      if e.key = k then some e else es.find? fun x => x.key = k := by
  induction es with
  | nil => by_cases hk : e.key = k <;> simp [placeEntry, hk]
  | cons x rest ih =>
    rw [placeEntry]
    by_cases hx : x.key = e.key
    · rw [if_pos hx, List.find?_cons, List.find?_cons, hx]
      by_cases hk : e.key = k <;> simp [hk]
    · rw [if_neg hx, List.find?_cons, List.find?_cons, ih]
      by_cases hxk : x.key = k
      · have hk : e.key ≠ k := fun h => hx (hxk.trans h.symm)
        simp [hxk, hk]
      · simp [hxk]

/-- A value that was installed is what is kept at its key, since this instant. What is kept at the
other keys is as it was. -/
@[simp] lemma kept?_install (c : Cache κ ν τ) (now : τ) (k j : κ) (v : ν) :
    (c.install now k v).kept? j = if k = j then some ⟨k, v, now⟩ else c.kept? j :=
  find?_placeEntry ⟨k, v, now⟩ j c.entries

/-- A new entry takes the place of the one with its key, or stands at the end. -/
lemma map_key_placeEntry (e : Entry κ ν τ) (es : List (Entry κ ν τ)) :
    (placeEntry e es).map Entry.key =
      if e.key ∈ es.map Entry.key then es.map Entry.key else es.map Entry.key ++ [e.key] := by
  induction es with
  | nil => simp [placeEntry]
  | cons x rest ih =>
    by_cases hx : x.key = e.key
    · simp [placeEntry, hx]
    · have hx' : e.key ≠ x.key := Ne.symm hx
      simp only [placeEntry, if_neg hx, List.map_cons, ih, List.mem_cons, hx', false_or]
      split <;> simp

/-- Who finds its place among entries becomes one of them, and no others do. -/
lemma mem_placeEntry {e x : Entry κ ν τ} {es : List (Entry κ ν τ)} (h : x ∈ placeEntry e es) :
    x = e ∨ x ∈ es := by
  induction es with
  | nil => simpa [placeEntry] using h
  | cons y rest ih =>
    simp only [placeEntry] at h
    split at h
    · grind
    · grind

/-- Nothing is kept at a key whose entry was taken out. What is kept at the other keys is as it
was. -/
@[simp] lemma kept?_dropEntry (c : Cache κ ν τ) (k j : κ) :
    (c.dropEntry k).kept? j = if k = j then none else c.kept? j := by
  simp only [kept?, dropEntry, List.find?_filter]
  split
  · next h => simp [List.find?_eq_none, h]
  · next h =>
    congr 1
    funext e
    by_cases hj : e.key = j <;> simp [hj, Ne.symm h]

/-! ## Shared loads -/

/-- No load is shared at a key if and only if the table of loads on the way has nothing at it. -/
lemma flight?_eq_none {c : Cache κ ν τ} {k : κ} :
    c.flight? k = none ↔ ∀ id, (k, id) ∉ c.inFlight := by
  simp only [flight?, List.lookup_eq_none_iff, bne_iff_ne, ne_eq, Prod.forall]
  exact ⟨fun h id hm => h k id hm rfl, fun h j id hm hj => h id (hj ▸ hm)⟩

/-- A load that is shared at a key stands in the table of loads on the way. -/
lemma mem_of_flight? {c : Cache κ ν τ} {k : κ} {l : Nat} (h : c.flight? k = some l) :
    (k, l) ∈ c.inFlight := by
  obtain ⟨before, after, hsplit, -⟩ := List.lookup_eq_some_iff.1 h
  rw [hsplit]
  simp

/-- A load that was just started is the one that is shared at its key. -/
lemma flight?_startLoad (c : Cache κ ν τ) (k : κ) :
    (c.startLoad k).flight? k = some c.nextLoad := by
  simp [flight?, startLoad]

/-! ## Looking -/

section Looking

variable [Add τ] [LE τ] [DecidableLE τ]

/-- A key shows the value of its entry as long as that is fresh. -/
lemma lookup_fst (c : Cache κ ν τ) (now : τ) (k : κ) :
    (c.lookup now k).1 =
      (c.kept? k).bind fun e => if c.isFresh now e then some e.value else none := by
  unfold lookup
  cases c.kept? k with
  | none => rfl
  | some e => by_cases hf : c.isFresh now e <;> simp [hf]

/-- What a key shows is in its entry. -/
lemma exists_kept?_of_lookup {c : Cache κ ν τ} {now : τ} {k : κ} {v : ν}
    (h : (c.lookup now k).1 = some v) : ∃ e, c.kept? k = some e ∧ e.value = v := by
  rw [lookup_fst] at h
  obtain ⟨e, he, hv⟩ := Option.bind_eq_some_iff.1 h
  split at hv
  · exact ⟨e, he, Option.some.inj hv⟩
  · exact absurd hv (by simp)

/-- Looking a key up changes nothing but the entries. -/
lemma lookup_snd (c : Cache κ ν τ) (now : τ) (k : κ) :
    (c.lookup now k).2 = { c with entries := (c.lookup now k).2.entries } := by
  unfold lookup
  cases c.kept? k with
  | none => rfl
  | some e => by_cases hf : c.isFresh now e <;> simp [hf, dropEntry]

section

variable (c : Cache κ ν τ) (now : τ) (k : κ)

/-- Looking up a key leaves the lifetime of values as it is. -/
@[simp] lemma ttl_lookup : (c.lookup now k).2.ttl = c.ttl := by rw [lookup_snd]

/-- Looking up a key leaves the loads alone, those that are shared and those that are not. -/
@[simp] lemma loads_lookup : (c.lookup now k).2.loads = c.loads := by rw [lookup_snd]

/-- Looking up a key uses up no number of a load. -/
@[simp] lemma nextLoad_lookup : (c.lookup now k).2.nextLoad = c.nextLoad := by rw [lookup_snd]

/-- Looking up a key leaves the table of loads on the way alone. -/
@[simp] lemma inFlight_lookup : (c.lookup now k).2.inFlight = c.inFlight := by rw [lookup_snd]

/-- So whatever was shared at a key is still shared after any key was looked up. -/
@[simp] lemma flight?_lookup (j : κ) : (c.lookup now k).2.flight? j = c.flight? j := by
  rw [lookup_snd]
  rfl

end

/-- A key that shows something loses nothing by being looked up. -/
lemma lookup_snd_of_some {c : Cache κ ν τ} {now : τ} {k : κ} {v : ν}
    (h : (c.lookup now k).1 = some v) : (c.lookup now k).2 = c := by
  unfold lookup at h ⊢
  cases hk : c.kept? k with
  | none => rfl
  | some e =>
    simp only [hk] at h ⊢
    split at h
    · next hf => rw [if_pos hf]
    · exact absurd h (by simp)

/-- A key that shows nothing loses its entry by being looked up.

**Proof sketch.** A key that shows nothing has no entry, and then there is nothing to drop, or an
expired one, and this is dropped. -/
lemma lookup_snd_of_none {c : Cache κ ν τ} {now : τ} {k : κ} (h : (c.lookup now k).1 = none) :
    (c.lookup now k).2 = c.dropEntry k := by
  unfold lookup at h ⊢
  cases hk : c.kept? k with
  | none =>
    have hall : c.entries.filter (fun e => e.key ≠ k) = c.entries := by
      simpa using kept?_eq_none.1 hk
    rw [dropEntry, hall]
  | some e =>
    simp only [hk] at h ⊢
    split at h
    · exact absurd h (by simp)
    · next hf => rw [if_neg hf]

/-- A key without an entry shows nothing, and nothing happens to the cache. -/
lemma lookup_of_kept?_none {c : Cache κ ν τ} {k : κ} (h : c.kept? k = none) (now : τ) :
    c.lookup now k = (none, c) := by
  rw [lookup, h]

/-- Looking a key up sheds expired entries alone.

**Proof sketch.** A key has one entry at most, so what is dropped is the entry that was found to be
expired. -/
lemma sheds_lookup {c : Cache κ ν τ} (hu : (c.entries.map Entry.key).Nodup) (now : τ) (k : κ) :
    c.Sheds now (c.lookup now k).2 := by
  unfold lookup
  cases hk : c.kept? k with
  | none => exact Sheds.refl c now
  | some e =>
    by_cases hf : c.isFresh now e
    · simpa [hf] using Sheds.refl c now
    · simp only [hf, Bool.false_eq_true, if_false]
      refine ⟨fun x => x.key ≠ k, rfl, fun x hx hxk => ?_⟩
      have hx' := kept?_key hu hx
      rw [show x.key = k by simpa using hxk, hk, Option.some.injEq] at hx'
      rw [← hx']
      simpa using hf

/-- The entry of a key that does not show is gone once the key was looked up. -/
lemma kept?_lookup_of_none {c : Cache κ ν τ} {now : τ} {k : κ} (h : (c.lookup now k).1 = none) :
    (c.lookup now k).2.kept? k = none := by
  simp [lookup_snd_of_none h]

end Looking

/-! ## Superseding -/

section Superseding

variable (c : Cache κ ν τ) (k : κ)

/-- Superseding the loads of a key takes this key to the next generation, and leaves the other ones
where they are. -/
@[simp] lemma generation_supersede (j : κ) :
    (c.supersede k).generation j = if j = k then c.generation j + 1 else c.generation j := rfl

/-- Superseding the loads of a key does not touch the values: what is kept stays, until somebody
drops it. -/
@[simp] lemma kept?_supersede (j : κ) : (c.supersede k).kept? j = c.kept? j := rfl

/-- Dropping a key leaves it with neither an entry nor a shared load. -/
lemma kept?_invalidate : (c.invalidate k).2.kept? k = none := by
  simp [invalidate]

/-- No load is shared at a key that was just dropped. Whoever asks for it next does not get what is
on its way. -/
lemma flight?_invalidate : (c.invalidate k).2.flight? k = none :=
  flight?_eq_none.2 fun id hid => by simp [invalidate, dropEntry, supersede] at hid

/-- Superseding one key after the other counts for each how often it was there, and changes nothing
but the generations and the shared loads.

**Proof sketch.** The induction is on the keys: each of them counts up its own generation, and takes
its own shared loads out. -/
lemma foldl_supersede (ks : List κ) (c : Cache κ ν τ) :
    ks.foldl supersede c =
      { c with
        generation := fun j => c.generation j + ks.count j
        inFlight := c.inFlight.filter fun p => p.1 ∉ ks } := by
  induction ks generalizing c with
  | nil => simp
  | cons k ks ih =>
    rw [List.foldl_cons, ih]
    simp only [supersede, List.filter_filter, List.mem_cons, not_or, Cache.mk.injEq, true_and,
      and_true]
    refine ⟨?_, ?_⟩
    · refine List.filter_congr fun p _ => ?_
      by_cases hp : p.1 = k <;> simp [hp]
    · funext j
      by_cases hj : j = k
      · simp [hj]; omega
      · simp [hj, Ne.symm hj]

/-- Dropping all keys empties both tables, and supersedes the loads of every key that was in one of
them. -/
lemma invalidateAll_eq :
    c.invalidateAll =
      { c with
        entries := []
        generation := fun j =>
          c.generation j + (c.entries.map Entry.key ++ c.inFlight.map Prod.fst).count j
        inFlight := [] } := by
  simp only [invalidateAll, foldl_supersede, Cache.mk.injEq, true_and, and_true]
  rw [List.filter_eq_nil_iff]
  intro p hp
  simpa using fun _ => ⟨p.2, hp⟩

/-- Dropping all keys leaves none of them with an entry or a shared load. -/
lemma kept?_invalidateAll : c.invalidateAll.kept? k = none := by
  simp [invalidateAll_eq, kept?]

/-- Nor is any load shared once all keys were dropped. -/
lemma flight?_invalidateAll : c.invalidateAll.flight? k = none := by
  simp [invalidateAll_eq, flight?]

end Superseding

/-! ## Asking -/

section Asking

variable [Add τ] [LE τ] [DecidableLE τ]

/-- What asking for a key comes to: it shows; or it does not, and there is a load to share, or one
is started, or nobody can load it.

**Proof sketch.** A case for each branch; asking looks the key up first. -/
lemma request_cases (c : Cache κ ν τ) (now : τ) (k : κ) (canLoad : Bool) :
    (∃ v, (c.lookup now k).1 = some v ∧
      c.request now k canLoad = (.hit v, (c.lookup now k).2)) ∨
    (c.lookup now k).1 = none ∧
      ((∃ id, c.flight? k = some id ∧
        c.request now k canLoad = (.joined id, (c.lookup now k).2)) ∨
      c.flight? k = none ∧
        c.request now k canLoad =
          if canLoad then (.started c.nextLoad, (c.lookup now k).2.startLoad k)
          else (.noLoader, (c.lookup now k).2)) := by
  have hflight := flight?_lookup c now k k
  have hnext := nextLoad_lookup c now k
  unfold request
  rcases hl : c.lookup now k with ⟨_ | v, c'⟩
  · rw [hl] at hflight hnext
    refine Or.inr ⟨rfl, ?_⟩
    cases hf : c.flight? k with
    | some id => exact Or.inl ⟨id, rfl, by simp [hflight, hf]⟩
    | none =>
      refine Or.inr ⟨rfl, ?_⟩
      simp only [hflight, hf]
      simp [← hnext]
  · exact Or.inl ⟨v, rfl, rfl⟩

end Asking

/-! ## The end of a load -/

section Finishing

variable (c : Cache κ ν τ) (now : τ) (l : Load κ) (value : Option ν)

/-- The end of a load changes nothing but the loads and the entries. -/
lemma finish_snd :
    (c.finish now l value).2 =
      { c.dropLoad l with entries := (c.finish now l value).2.entries } := by
  unfold finish
  cases value with
  | none => rfl
  | some v => by_cases hg : c.generation l.key = l.generation <;> simp [hg, install, dropLoad]

/-- The end of a load takes it off the books by its number, and no other load, whether its value is
installed or not. -/
@[simp] lemma loads_finish :
    (c.finish now l value).2.loads = c.loads.filter fun m => m.id ≠ l.id := by
  rw [finish_snd]
  rfl

/-- The end of a load uses up no number. -/
@[simp] lemma nextLoad_finish : (c.finish now l value).2.nextLoad = c.nextLoad := by
  rw [finish_snd]
  rfl

/-- The end of a load leaves the lifetime of values as it is. -/
@[simp] lemma ttl_finish : (c.finish now l value).2.ttl = c.ttl := by
  rw [finish_snd]
  rfl

/-- An entry that a key has once a load has ended was there before, or was installed: the load was
one of that key, and current.

**Proof sketch.** The value is installed if the load is current, under the key of the load. In all
other cases the entries stay. -/
lemma kept?_finish {c : Cache κ ν τ} {now : τ} {l : Load κ} {value : Option ν} {k : κ}
    {e : Entry κ ν τ} (he : (c.finish now l value).2.kept? k = some e) :
    c.kept? k = some e ∨
      l.key = k ∧ l.generation = c.generation l.key ∧ value = some e.value := by
  unfold finish at he
  cases value with
  | none => exact Or.inl he
  | some v =>
    by_cases hg : c.generation l.key = l.generation
    · have hinstall : ((c.install now l.key v).dropLoad l).kept? k = some e := by
        simpa only [hg, if_true] using he
      rw [show ((c.install now l.key v).dropLoad l).kept? k = (c.install now l.key v).kept? k from
        rfl, kept?_install] at hinstall
      split at hinstall
      · next hk =>
        obtain rfl := Option.some.inj hinstall
        exact Or.inr ⟨hk, hg.symm, rfl⟩
      · exact Or.inl hinstall
    · have hdrop : (c.dropLoad l).kept? k = some e := by simpa only [hg, if_false] using he
      exact Or.inl hdrop

end Finishing

end NodeKeeper.Cache
