import NodeKeeper.Proofs.Cache.Tables

/-!
# The tables of a cache agree

The generation that a load remembers, the table of shared loads and the table of entries are three
records of the same thing: which load of a key may still install its value. Every operation of a
cache keeps them in step.

## Main definitions

* `Cache.Coherent` — the tables of a cache agree.

## Main results

* `Cache.Coherent.put`, `Cache.Coherent.invalidate`, `Cache.Coherent.invalidateAll` — changes from
  outside keep the tables in step.
* `Cache.Coherent.startLoad`, `Cache.Coherent.finish` — so do the start and the end of a load.
* `Cache.Coherent.current_iff` — a load is current if and only if it is the shared one.

## Implementation notes

A load is *current* as long as the generation that it remembers is that of its key. The operations
are put together of smaller changes, each of which keeps the tables in step on its own.
-/

namespace NodeKeeper.Cache

variable {κ ν τ : Type}

/-- The tables of a cache agree. -/
structure Coherent (c : Cache κ ν τ) : Prop where
  /-- A key has one entry at most. -/
  entry_unique : (c.entries.map Entry.key).Nodup
  /-- A key has one shared load at most. -/
  flight_unique : (c.inFlight.map Prod.fst).Nodup
  /-- A key that has an entry has no shared load. -/
  apart : ∀ e ∈ c.entries, ∀ p ∈ c.inFlight, p.1 ≠ e.key
  load_unique : (c.loads.map Load.id).Nodup
  load_lt : ∀ l ∈ c.loads, l.id < c.nextLoad
  generation_le : ∀ l ∈ c.loads, l.generation ≤ c.generation l.key
  /-- The shared loads are the current ones. -/
  flight_iff : ∀ k id, (k, id) ∈ c.inFlight ↔
    ∃ l ∈ c.loads, l.id = id ∧ l.key = k ∧ l.generation = c.generation k
  /-- Two loads of a key were started in different generations. -/
  generation_unique : ∀ l ∈ c.loads, ∀ m ∈ c.loads, l.key = m.key → l.generation = m.generation →
    l = m

namespace Coherent

variable {c : Cache κ ν τ}

/-- A cache in which nothing was done is coherent. -/
lemma new (ttl : Option τ) (name : String) : ({ ttl, name } : Cache κ ν τ).Coherent := by
  constructor <;> simp

/-! ### Loads and the table of shared loads -/

/-- The loads of a coherent cache are told apart by their numbers: two of them with the same number
are one load. -/
lemma load_eq (h : c.Coherent) {l m : Load κ} (hl : l ∈ c.loads) (hm : m ∈ c.loads)
    (hid : l.id = m.id) : l = m :=
  List.inj_on_of_nodup_map h.load_unique hl hm hid

/-- A load is current if and only if those who ask for its key share it. -/
theorem current_iff (h : c.Coherent) {l : Load κ} (hl : l ∈ c.loads) :
    l.generation = c.generation l.key ↔ (l.key, l.id) ∈ c.inFlight := by
  rw [h.flight_iff]
  refine ⟨fun hg => ⟨l, hl, rfl, rfl, hg⟩, ?_⟩
  rintro ⟨m, hm, hid, -, hg⟩
  rwa [h.load_eq hm hl hid] at hg

/-- A key of a coherent cache has at most one load that is shared: whatever is found under it in the
table of loads on the way is the same number. -/
lemma flight_eq (h : c.Coherent) {k : κ} {i j : Nat} (hi : (k, i) ∈ c.inFlight)
    (hj : (k, j) ∈ c.inFlight) : i = j :=
  congrArg Prod.snd (List.inj_on_of_nodup_map h.flight_unique hi hj rfl)

/-! ### Smaller changes -/

/-- A table of entries may lose any of them. -/
lemma filterEntries (h : c.Coherent) (p : Entry κ ν τ → Bool) :
    ({ c with entries := c.entries.filter p } : Cache κ ν τ).Coherent where
  entry_unique := h.entry_unique.sublist (List.filter_sublist.map _)
  flight_unique := h.flight_unique
  apart := fun e he => h.apart e (List.mem_filter.1 he).1
  load_unique := h.load_unique
  load_lt := h.load_lt
  generation_le := h.generation_le
  flight_iff := h.flight_iff
  generation_unique := h.generation_unique

/-- A cache that only loses entries stays coherent. The keys of what is left are still different,
and of the loads nothing changes. -/
lemma sheds [Add τ] [LE τ] [DecidableLE τ] (h : c.Coherent) {now : τ} {c' : Cache κ ν τ}
    (hs : c.Sheds now c') : c'.Coherent := by
  obtain ⟨p, rfl, -⟩ := hs
  exact h.filterEntries p

variable [DecidableEq κ]

/-- A key whose loads are superseded leaves the cache coherent: its load is not shared any more, and
its generation is ahead of all those that its loads remember.

**Proof sketch.** Only the table of shared loads and the generations change. A load is still shared
if its key is another one; if it is this key, the new generation is ahead of all those that loads
remember, so that none of them is the current one. -/
lemma supersede (h : c.Coherent) (k : κ) : (c.supersede k).Coherent where
  entry_unique := h.entry_unique
  flight_unique := h.flight_unique.sublist (List.filter_sublist.map _)
  apart := fun e he p hp => h.apart e he p (List.mem_filter.1 hp).1
  load_unique := h.load_unique
  load_lt := h.load_lt
  generation_le := by
    intro l hl
    have := h.generation_le l hl
    rw [generation_supersede]
    split <;> omega
  flight_iff := by
    intro j id
    simp only [Cache.supersede, List.mem_filter, h.flight_iff, ne_eq, decide_eq_true_eq]
    by_cases hj : j = k
    · subst hj
      simp only [not_true_eq_false, and_false, if_true, false_iff, not_exists, not_and]
      rintro l hl - rfl
      have := h.generation_le l hl
      omega
    · simp [hj]
  generation_unique := h.generation_unique

/-- A key that has no shared load may get an entry.

**Proof sketch.** Only the table of entries changes. The key is put in its old place, or at the end
if it was not there before; as it has no shared load, entries and shared loads stay apart. -/
lemma install (h : c.Coherent) {k : κ} (hk : ∀ id, (k, id) ∉ c.inFlight) (now : τ) (v : ν) :
    (c.install now k v).Coherent where
  entry_unique := by
    rw [Cache.install, map_key_placeEntry]
    split
    · exact h.entry_unique
    · next hn =>
      rw [List.nodup_append]
      refine ⟨h.entry_unique, List.nodup_singleton _, fun a ha b hb => ?_⟩
      rw [List.mem_singleton.1 hb]
      exact fun hab => hn (hab ▸ ha)
  flight_unique := h.flight_unique
  apart := by
    intro e he p hp
    rcases mem_placeEntry he with rfl | he
    · exact fun hpk => hk p.2 (by rw [← show p.1 = k from hpk]; exact hp)
    · exact h.apart e he p hp
  load_unique := h.load_unique
  load_lt := h.load_lt
  generation_le := h.generation_le
  flight_iff := h.flight_iff
  generation_unique := h.generation_unique

/-- A load may end, if it leaves the table of shared loads as well.

**Proof sketch.** All tables lose at most what belongs to the load. It is found there by its number,
and no other load has this number. -/
lemma dropLoad (h : c.Coherent) {l : Load κ} (hl : l ∈ c.loads) : (c.dropLoad l).Coherent where
  entry_unique := h.entry_unique
  flight_unique := h.flight_unique.sublist (List.filter_sublist.map _)
  apart := fun e he p hp => h.apart e he p (List.mem_filter.1 hp).1
  load_unique := h.load_unique.sublist (List.filter_sublist.map _)
  load_lt := fun m hm => h.load_lt m (List.mem_filter.1 hm).1
  generation_le := fun m hm => h.generation_le m (List.mem_filter.1 hm).1
  flight_iff := by
    intro k id
    simp only [Cache.dropLoad, List.mem_filter, h.flight_iff, ne_eq, decide_eq_true_eq]
    constructor
    · rintro ⟨⟨m, hm, rfl, rfl, hg⟩, hne⟩
      exact ⟨m, ⟨hm, fun hid => hne (by rw [h.load_eq hm hl hid])⟩, rfl, rfl, hg⟩
    · rintro ⟨m, ⟨hm, hid⟩, rfl, rfl, hg⟩
      exact ⟨⟨m, hm, rfl, rfl, hg⟩, fun he => hid (congrArg Prod.snd he)⟩
  generation_unique := fun m hm n hn =>
    h.generation_unique m (List.mem_filter.1 hm).1 n (List.mem_filter.1 hn).1

/-- A current load leaves its key without a shared load. -/
lemma not_mem_inFlight_dropLoad (h : c.Coherent) {l : Load κ} (hl : l ∈ c.loads)
    (hg : l.generation = c.generation l.key) (id : Nat) :
    (l.key, id) ∉ (c.dropLoad l).inFlight := by
  intro hid
  obtain ⟨hid, hne⟩ := List.mem_filter.1 hid
  have : id = l.id := h.flight_eq hid ((h.current_iff hl).1 hg)
  simp [this] at hne

/-! ### Operations -/

/-- A value that is put leaves the cache coherent: the one entry of its key takes the place of the
old one, and the loads of the key are superseded. -/
theorem put (h : c.Coherent) (now : τ) (k : κ) (v : ν) : (c.put now k v).Coherent :=
  (h.supersede k).install (fun id hid => by simp [Cache.supersede] at hid) now v

/-- A key that is dropped leaves the cache coherent, whether there was an entry of it or not. -/
theorem invalidate (h : c.Coherent) (k : κ) : (c.invalidate k).2.Coherent :=
  (h.supersede k).filterEntries _

/-- Dropping all keys leaves no load current.

**Proof sketch.** A current load is shared, so that its key is superseded at least once. -/
theorem invalidateAll (h : c.Coherent) : c.invalidateAll.Coherent := by
  rw [invalidateAll_eq]
  refine ⟨by simp, by simp, by simp, h.load_unique, h.load_lt, ?_, ?_, h.generation_unique⟩
  · intro l hl
    exact Nat.le_trans (h.generation_le l hl) (Nat.le_add_right _ _)
  · intro k id
    simp only [List.not_mem_nil, false_iff, not_exists, not_and]
    rintro l hl - rfl hg
    have hle := h.generation_le l hl
    have hcount : (c.entries.map Entry.key ++ c.inFlight.map Prod.fst).count l.key = 0 := by omega
    have hcur : (l.key, l.id) ∈ c.inFlight := (h.current_iff hl).1 (by omega)
    refine List.count_eq_zero.1 hcount (List.mem_append_right _ ?_)
    exact List.mem_map_of_mem hcur

/-- A key with neither an entry nor a shared load may start one.

**Proof sketch.** No load of the key is current, so that the new one is the first of its
generation. -/
theorem startLoad (h : c.Coherent) {k : κ} (he : c.kept? k = none)
    (hf : ∀ id, (k, id) ∉ c.inFlight) : (c.startLoad k).Coherent := by
  have hlt : ∀ l ∈ c.loads, l.key = k → l.generation < c.generation k := by
    rintro l hl rfl
    refine Nat.lt_of_le_of_ne (h.generation_le l hl) fun hg => ?_
    exact hf l.id ((h.current_iff hl).1 hg)
  refine ⟨h.entry_unique, ?_, ?_, ?_, ?_, ?_, ?_, ?_⟩
  · simp only [Cache.startLoad, List.map_cons, List.nodup_cons, List.mem_map, not_exists, not_and]
    refine ⟨fun p hp hpk => hf p.2 ?_, h.flight_unique⟩
    rwa [← hpk]
  · intro e hem p hp
    rcases List.mem_cons.1 hp with rfl | hp
    · exact (kept?_eq_none.1 he e hem).symm
    · exact h.apart e hem p hp
  · simp only [Cache.startLoad, List.map_cons, List.nodup_cons, List.mem_map, not_exists, not_and]
    refine ⟨fun l hl hid => ?_, h.load_unique⟩
    have := h.load_lt l hl
    omega
  · intro l hl
    rcases List.mem_cons.1 hl with rfl | hl
    · exact Nat.lt_succ_self _
    · exact Nat.lt_succ_of_lt (h.load_lt l hl)
  · intro l hl
    rcases List.mem_cons.1 hl with rfl | hl
    · exact Nat.le_refl _
    · exact h.generation_le l hl
  · intro j id
    simp only [Cache.startLoad, List.mem_cons, Prod.mk.injEq, exists_eq_or_imp, h.flight_iff]
    refine or_congr ⟨?_, ?_⟩ Iff.rfl
    · rintro ⟨rfl, rfl⟩
      exact ⟨rfl, rfl, rfl⟩
    · rintro ⟨rfl, rfl, -⟩
      exact ⟨rfl, rfl⟩
  · intro l hl m hm hk hg
    rcases List.mem_cons.1 hl with rfl | hl <;> rcases List.mem_cons.1 hm with rfl | hm
    · rfl
    · exact absurd hg (Nat.ne_of_gt (hlt m hm hk.symm))
    · exact absurd hg (Nat.ne_of_lt (hlt l hl hk))
    · exact h.generation_unique l hl m hm hk hg

/-- A load may end, with a value or without one.

**Proof sketch.** Only a current load installs its value, and it leaves its key without a shared
load, so that the key may get an entry. -/
theorem finish (h : c.Coherent) {l : Load κ} (hl : l ∈ c.loads) (now : τ) (value : Option ν) :
    (c.finish now l value).2.Coherent := by
  unfold Cache.finish
  cases value with
  | none => exact h.dropLoad hl
  | some v =>
    by_cases hg : c.generation l.key = l.generation
    · simp only [hg, if_true]
      exact (h.dropLoad hl).install (h.not_mem_inFlight_dropLoad hl hg.symm) now v
    · simpa only [hg, if_false] using h.dropLoad hl

end Coherent

end NodeKeeper.Cache
