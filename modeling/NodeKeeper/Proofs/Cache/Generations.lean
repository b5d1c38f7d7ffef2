import NodeKeeper.Proofs.Cache.Since

/-!
# Generations

A load remembers the generation of its key from when it was started. Generations only grow, so that
the loads of a key that are on their way at once are told apart by what they remember, and the one
that remembers the latest generation is the one that those who ask for the key share. Such a load is
the only one that leaves anything behind when it ends.

## Main definitions

* `Cache.Closes` — what the end of a load does to the tables of a cache.

## Main results

* `Cache.Coherent.generation_eq_iff` — the test by which a load finds out whether it may install its
  value.
* `Cache.Coherent.closes_finish` — a load that ends leaves the tables alone but for its own places.
* `Cache.generation_le_apply`, `Cache.Drift.generation_le` — generations never decrease.
* `Cache.Drift.captured` — loads keep the generations that they remember.
-/

namespace NodeKeeper.Cache

variable {κ ν τ : Type} [DecidableEq κ]

/-! ## Shared loads -/

namespace Coherent

variable {c : Cache κ ν τ}

/-- In a coherent cache, the load that is found first for a key is the only one there is, so that
looking it up and finding it in the table is the same. -/
lemma flight?_eq_some_iff (h : c.Coherent) {k : κ} {l : Nat} :
    c.flight? k = some l ↔ (k, l) ∈ c.inFlight := by
  refine ⟨mem_of_flight?, fun hl => ?_⟩
  cases hf : c.flight? k with
  | none => exact absurd hl (flight?_eq_none.1 hf l)
  | some m => rw [h.flight_eq hl (mem_of_flight? hf)]

/-- **The generation test.** The generation of its key is still the one that a load remembers if and
only if those who ask for the key share the load. -/
theorem generation_eq_iff (h : c.Coherent) {load : Load κ} (hl : load ∈ c.loads) :
    c.generation load.key = load.generation ↔ c.flight? load.key = some load.id := by
  rw [h.flight?_eq_some_iff, ← h.current_iff hl, eq_comm]

/-- A key has no entry, or no shared load. -/
lemma kept?_eq_none_or (h : c.Coherent) (k : κ) : c.kept? k = none ∨ c.flight? k = none := by
  cases he : c.kept? k with
  | none => exact Or.inl rfl
  | some e =>
    obtain ⟨hmem, rfl⟩ := kept?_eq_some he
    exact Or.inr (flight?_eq_none.2 fun l hl => h.apart e hmem _ hl rfl)

/-- The shared load of a key is the one that remembers its generation. -/
lemma mem_loads_of_flight? (h : c.Coherent) {k : κ} {l : Nat} (hf : c.flight? k = some l) :
    ⟨l, k, c.generation k⟩ ∈ c.loads := by
  obtain ⟨load, hm, rfl, rfl, hg⟩ := (h.flight_iff k l).1 (mem_of_flight? hf)
  rw [← hg]
  exact hm

/-- A load that is not shared remembers an earlier generation. -/
lemma generation_lt (h : c.Coherent) {load : Load κ} (hl : load ∈ c.loads)
    (hf : c.flight? load.key ≠ some load.id) : load.generation < c.generation load.key := by
  refine Nat.lt_of_le_of_ne (h.generation_le load hl) fun hg => hf ?_
  exact (h.generation_eq_iff hl).1 hg.symm

/-- A load is shared by those who ask for its own key alone. -/
lemma key_eq_of_flight? (h : c.Coherent) {load : Load κ} (hl : load ∈ c.loads) {k : κ}
    (hf : c.flight? k = some load.id) : k = load.key := by
  obtain ⟨m, hm, hid, rfl, -⟩ := (h.flight_iff k load.id).1 (mem_of_flight? hf)
  rw [h.load_eq hm hl hid]

end Coherent

/-! ## The end of a load -/

/-- What the end of a load does to the tables of a cache: if the load is shared, its key gets what
it came to in its place. Nothing else happens, but that the load is over. -/
structure Closes (c : Cache κ ν τ) (now : τ) (l : Nat) (value : Option ν) (c' : Cache κ ν τ) :
    Prop where
  flight?_eq : ∀ k, c'.flight? k = if c.flight? k = some l then none else c.flight? k
  kept?_eq : ∀ k, c'.kept? k =
    if c.flight? k = some l then value.map fun v => ⟨k, v, now⟩ else c.kept? k
  mem_loads_iff : ∀ load, load ∈ c'.loads ↔ load ∈ c.loads ∧ load.id ≠ l
  generation_eq : c'.generation = c.generation

section Closing

variable {c : Cache κ ν τ} {load : Load κ}

/-- A load that is taken off the books is not shared any more. What the other loads share, and what
this one shared under other keys, is as it was.

**Proof sketch.** If the load was shared under the key, it was the only one that could be, and it is
gone. If not, the two tables share the same loads at that key, which is read off the rows that are
left. -/
lemma flight?_dropLoad (h : c.Coherent) (hl : load ∈ c.loads) (k : κ) :
    (c.dropLoad load).flight? k = if c.flight? k = some load.id then none else c.flight? k := by
  split
  · next hf =>
    obtain rfl := h.key_eq_of_flight? hl hf
    refine flight?_eq_none.2 fun m hm => ?_
    obtain ⟨hm, hne⟩ := List.mem_filter.1 hm
    obtain rfl : m = load.id := h.flight_eq hm (mem_of_flight? hf)
    simp at hne
  · next hf =>
    refine Option.ext fun m => ?_
    rw [(h.dropLoad hl).flight?_eq_some_iff, h.flight?_eq_some_iff]
    refine ⟨fun hm => (List.mem_filter.1 hm).1, fun hm => List.mem_filter.2 ⟨hm, ?_⟩⟩
    refine decide_eq_true fun heq => hf ?_
    obtain ⟨rfl, rfl⟩ := Prod.mk.inj heq
    exact h.flight?_eq_some_iff.2 hm

/-- The entries once a load has ended.

**Proof sketch.** The value is installed just if the generation that the load remembers is still
that of its key, which is to say that the load is shared under it. A key with a shared load has no
entry before, which settles loads that fail. -/
lemma kept?_finish_eq (h : c.Coherent) (hl : load ∈ c.loads) (now : τ) (value : Option ν) (k : κ) :
    (c.finish now load value).2.kept? k =
      if c.flight? k = some load.id then value.map fun v => ⟨k, v, now⟩ else c.kept? k := by
  have hkey (hf : c.flight? k = some load.id) := h.key_eq_of_flight? hl hf
  cases value with
  | none =>
    change c.kept? k = _
    split
    · next hf => exact (h.kept?_eq_none_or k).resolve_right fun hn => by simp [hf] at hn
    · rfl
  | some v =>
    by_cases hg : c.generation load.key = load.generation
    · have hinstall : (c.finish now load (some v)).2.kept? k =
          (c.install now load.key v).kept? k := by
        simp only [finish, hg, if_true]
        rfl
      have hshared := (h.generation_eq_iff hl).1 hg
      rw [hinstall, kept?_install]
      by_cases hk : load.key = k
      · subst hk
        simp [hshared]
      · rw [if_neg hk, if_neg fun hf => hk (hkey hf).symm]
    · have hdrop : (c.finish now load (some v)).2.kept? k = c.kept? k := by
        simp only [finish, hg, if_false]
        rfl
      rw [hdrop, if_neg]
      intro hf
      obtain rfl := hkey hf
      exact hg ((h.generation_eq_iff hl).2 hf)

/-- **A load that ends**, with a value or without one, takes itself out of the table of shared loads
if it is there, and never another one. -/
theorem Coherent.closes_finish (h : c.Coherent) (hl : load ∈ c.loads) (now : τ)
    (value : Option ν) : c.Closes now load.id value (c.finish now load value).2 where
  flight?_eq k := by
    rw [finish_snd]
    exact flight?_dropLoad h hl k
  kept?_eq := kept?_finish_eq h hl now value
  mem_loads_iff m := by simp
  generation_eq := by
    rw [finish_snd]
    rfl

end Closing

/-! ## Generations only grow -/

/-- Superseding the loads of a key lowers no generation: the one of the key goes up by one, and the
others stay. -/
lemma generation_le_supersede (c : Cache κ ν τ) (k j : κ) :
    c.generation j ≤ (c.supersede k).generation j := by
  rw [generation_supersede]
  split <;> omega

/-- Dropping all keys lowers no generation. Every key of which the cache knows something has a
higher one then. -/
lemma generation_le_invalidateAll (c : Cache κ ν τ) (k : κ) :
    c.generation k ≤ c.invalidateAll.generation k := by
  rw [invalidateAll_eq]
  exact Nat.le_add_right _ _

section Growing

variable [Add τ] [LE τ] [DecidableLE τ] {b b' b'' : Ledger κ ν τ} {h es : History κ ν τ}

/-- Looking up a key leaves all generations alone, also if the entry of the key is found expired and
is taken out. -/
@[simp] lemma generation_lookup (c : Cache κ ν τ) (now : τ) (k : κ) :
    (c.lookup now k).2.generation = c.generation := by
  rw [lookup_snd]

/-- **An edit** decreases no generation. -/
theorem generation_le_apply {σ : Type} [Keylike κ] (st : Stage σ κ ν τ) (e : Edit κ ν) (k : κ) :
    st.cache.generation k ≤ (st.apply e).cache.generation k := by
  cases e with
  | put j v => exact generation_le_supersede st.cache j k
  | invalidate j =>
    simp only [Stage.apply, Stage.invalidate, Stage.recordIf]
    split <;> exact generation_le_supersede st.cache j k
  | invalidateAll => exact generation_le_invalidateAll st.cache k
  | lookup j => exact Nat.le_of_eq (congrFun (generation_lookup st.cache st.now j).symm k)
  | keys => exact Nat.le_refl _

/-- A step decreases no generation.

**Proof sketch.** The cases are those of the step. What supersedes keys counts up, and all other
steps leave the generations alone. -/
lemma Step.generation_le (hs : Step b es b') (hv : b.Valid) (k : κ) :
    b.cache.generation k ≤ b'.cache.generation k := by
  cases hs with
  | elapse _ | keys => exact Nat.le_refl _
  | lookup j => simp
  | put j v => exact generation_le_supersede b.cache j k
  | drop j => exact generation_le_supersede b.cache j k
  | dropAll => exact generation_le_invalidateAll b.cache k
  | ask _ => simp
  | start _ _ => simp [startLoad]
  | land ha value =>
    obtain ⟨load, hm, -, -, hclose⟩ := hv.close_eq ha value
    simp [hclose, (hv.coherent.closes_finish hm b.now value).generation_eq]

/-- A load that a step starts remembers the generation that its key has then.

**Proof sketch.** All steps but two leave the loads as they are. A start adds a load that remembers
the generation of its key at that time, and the end of a load takes one away. -/
lemma Step.captured (hs : Step b es b') (hv : b.Valid) {load : Load κ}
    (hl : load ∈ b'.cache.loads) : load ∈ b.cache.loads ∨
      b.flights.length ≤ load.id ∧ b.cache.generation load.key ≤ load.generation := by
  cases hs with
  | elapse _ | keys | put _ _ | drop _ => exact Or.inl hl
  | lookup _ | ask _ => exact Or.inl (by simpa using hl)
  | dropAll =>
    rw [invalidateAll_eq] at hl
    exact Or.inl hl
  | start _ _ =>
    rcases List.mem_cons.1 hl with rfl | hold
    · exact Or.inr ⟨by simp [hv.length_flights], by simp⟩
    · exact Or.inl (by simpa using hold)
  | land ha value =>
    obtain ⟨m, hm, -, -, hclose⟩ := hv.close_eq ha value
    rw [hclose] at hl
    exact Or.inl (((hv.coherent.closes_finish hm b.now value).mem_loads_iff load).1 hl).1

namespace Drift

/-- **A drift** decreases no generation. -/
theorem generation_le (hd : Drift b h b') (hv : b.Valid) (k : κ) :
    b.cache.generation k ≤ b'.cache.generation k := by
  induction hd with
  | refl => exact Nat.le_refl _
  | step hd hs ih => exact Nat.le_trans ih (hs.generation_le (hv.drift hd) k)
  | reset _ _ ih => exact ih

/-- **A load keeps the generation that it remembers.** A load that has not ended was there before,
as it is, or has been started since; then it remembers no earlier generation than its key had. -/
theorem captured (hd : Drift b h b') (hv : b.Valid) {load : Load κ}
    (hl : load ∈ b'.cache.loads) : load ∈ b.cache.loads ∨
      b.flights.length ≤ load.id ∧ b.cache.generation load.key ≤ load.generation := by
  induction hd with
  | refl => exact Or.inl hl
  | step hd hs ih =>
    rcases hs.captured (hv.drift hd) hl with hold | ⟨hid, hg⟩
    · exact ih hold
    · exact Or.inr ⟨Nat.le_trans hd.length_flights_le hid,
        Nat.le_trans (hd.generation_le hv load.key) hg⟩
  | reset _ _ ih => exact ih hl

end Drift

end Growing

end NodeKeeper.Cache
