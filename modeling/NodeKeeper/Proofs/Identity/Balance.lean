import Mathlib.Data.Finset.Card
import Mathlib.Data.Finset.Dedup
import NodeKeeper.Proofs.Identity.Changes

/-!
# Reasons for loads

A supplier asks for a token when there is none, and there is none for a reason: nothing has been
asked for yet, a load has failed, or the token was dropped as expired, was forgotten, or its
lifetime in the cache is over. Each of these is a reason for one load only.

## Main definitions

* `Supplier.spare` — nothing stands in the way of the next load.
* `Supplier.Tidy` — what a cache and its serial numbers are like while the credentials stay the
  same.
* `Supplier.Balanced` — there was a reason for each load, and there is one for the next load.

## Main results

* `Supplier.Balanced.change`, `Supplier.Balanced.changes` — every change of the cache keeps the
  balance.

## Implementation notes

Whether the next load could be started counts as a load on the one side of the balance. A token
whose lifetime in the cache is over counts as a reason from the moment on at which this is so, and
not only when somebody notices.
-/

namespace NodeKeeper.Supplier

variable {τ : Type}

/-- One if nothing stands in the way of the next load: none is on the way, and the cache holds no
token whose lifetime is not over. -/
def spare (k : Credentials) (old : List Nat) (c : Cache Credentials (Issued τ) τ) : Nat :=
  if (c.flight? k).isNone && (c.kept? k).all (fun e => decide (e.value.serial ∈ old)) then 1 else 0

/-- All entries and loads belong to the same credentials. Serial numbers that were given to a token
stay below the next one, and a token that was dropped is not in the cache any more. -/
structure Tidy (k : Credentials) (old gone : List Nat) (c : Cache Credentials (Issued τ) τ)
    (n : Nat) : Prop where
  coherent : c.Coherent
  entry_key : ∀ e ∈ c.entries, e.key = k
  load_key : ∀ l ∈ c.loads, l.key = k
  entry_lt : ∀ e ∈ c.entries, e.value.serial < n
  entry_not_mem : ∀ e ∈ c.entries, e.value.serial ∉ gone
  gone_lt : ∀ i ∈ gone, i < n
  gone_nodup : gone.Nodup
  old_lt : ∀ i ∈ old, i < n

/-- There was a reason for each load that was started, and there is one for the next load if it
could be started. At the beginning, so many loads have no other reason. -/
structure Balanced (k : Credentials) (base : Nat) (old : List Nat)
    (c : Cache Credentials (Issued τ) τ) (n : Nat) (x : Figures) : Prop where
  tidy : Tidy k old x.dropped c n
  starts_le : x.starts + spare k old c ≤
    base + x.fails + x.dropped.length + old.toFinset.card + x.forgot

variable {k : Credentials} {base : Nat} {old gone : List Nat}
  {c c' : Cache Credentials (Issued τ) τ} {n n' : Nat} {x y : Figures}

/-! ## The next load -/

/-- There is at most one load that nothing stands in the way of. -/
lemma spare_le_one (k : Credentials) (old : List Nat) (c : Cache Credentials (Issued τ) τ) :
    spare k old c ≤ 1 := by
  unfold spare
  split <;> omega

/-- A load that is on the way stands in the way of the next one. -/
lemma spare_of_flight {l : Nat} (hf : c.flight? k = some l) : spare k old c = 0 := by
  simp [spare, hf]

/-- So does a token whose lifetime is not over. -/
lemma spare_of_kept {e : Cache.Entry Credentials (Issued τ) τ} (hk : c.kept? k = some e)
    (he : e.value.serial ∉ old) : spare k old c = 0 := by
  simp [spare, hk, he]

/-- Without a load on the way and without a token, nothing stands in the way. -/
lemma spare_of_vacant (hk : c.kept? k = none) (hf : c.flight? k = none) : spare k old c = 1 := by
  simp [spare, hk, hf]

/-- Nothing stands in the way of the next load if and only if none is on the way, and the token that
is kept, if there is one, has reached the end of its lifetime. -/
lemma spare_eq_one_iff : spare k old c = 1 ↔
    c.flight? k = none ∧ ∀ e, c.kept? k = some e → e.value.serial ∈ old := by
  cases hk : c.kept? k <;> simp [spare, hk]

/-- What stands in the way of the next load stays there, unless it is a token whose lifetime is
over. -/
lemma spare_le_spare (hf : c'.flight? k = none → c.flight? k = none)
    (hk : ∀ e, c.kept? k = some e → c'.kept? k = some e ∨ e.value.serial ∈ old) :
    spare k old c' ≤ spare k old c := by
  by_cases h : spare k old c' = 1
  · obtain ⟨hflight, hkept⟩ := spare_eq_one_iff.1 h
    have hone : spare k old c = 1 :=
      spare_eq_one_iff.2 ⟨hf hflight, fun e he => (hk e he).elim (hkept e) id⟩
    omega
  · have hle := spare_le_one k old c'
    omega

/-! ## Tables and serial numbers -/

namespace Tidy

/-- In a tidy cache every entry is what is kept for the credentials, as there are no others. -/
lemma kept? (H : Tidy k old gone c n) {e : Cache.Entry Credentials (Issued τ) τ}
    (he : e ∈ c.entries) : c.kept? k = some e := by
  have hkept := Cache.kept?_key H.coherent.entry_unique he
  rwa [H.entry_key e he] at hkept

/-- Entries and loads may be lost. -/
lemma of_subset (H : Tidy k old gone c n) (hc : c'.Coherent) (he : c'.entries ⊆ c.entries)
    (hl : c'.loads ⊆ c.loads) : Tidy k old gone c' n where
  coherent := hc
  entry_key := fun e h => H.entry_key e (he h)
  load_key := fun l h => H.load_key l (hl h)
  entry_lt := fun e h => H.entry_lt e (he h)
  entry_not_mem := fun e h => H.entry_not_mem e (he h)
  gone_lt := H.gone_lt
  gone_nodup := H.gone_nodup
  old_lt := H.old_lt

/-- A load of the credentials that is started leaves the cache tidy.

**Proof sketch.** A load that is started touches no entries, and it is one of the credentials. -/
lemma start (H : Tidy k old gone c n) (hk : c.kept? k = none) (hf : c.flight? k = none) :
    Tidy k old gone (c.startLoad k) n where
  coherent := H.coherent.startLoad hk (Cache.flight?_eq_none.1 hf)
  entry_key := H.entry_key
  load_key := by
    intro l hl
    rcases List.mem_cons.1 hl with rfl | hl
    · rfl
    · exact H.load_key l hl
  entry_lt := H.entry_lt
  entry_not_mem := H.entry_not_mem
  gone_lt := H.gone_lt
  gone_nodup := H.gone_nodup
  old_lt := H.old_lt

/-- So does forgetting the token of the credentials: the load that was on its way is not shared any
more. -/
lemma forget (H : Tidy k old gone c n) : Tidy k old gone (c.invalidate k).2 n :=
  H.of_subset (H.coherent.invalidate k) (fun _ he => (List.mem_filter.1 he).1) fun _ hl => hl

/-- The token that the cache holds is dropped.

**Proof sketch.** Once the credentials are dropped, no entry is left. The number that is added to
those that are gone is new there, as the entry was still in the cache. -/
lemma drop (H : Tidy k old gone c n) {e : Cache.Entry Credentials (Issued τ) τ}
    (hk : c.kept? k = some e) :
    Tidy k old (gone ++ [e.value.serial]) (c.invalidate k).2 n where
  coherent := H.forget.coherent
  entry_key := H.forget.entry_key
  load_key := H.forget.load_key
  entry_lt := H.forget.entry_lt
  entry_not_mem := by
    -- no entry is left, as all of them belong to the same credentials
    intro e' he'
    exact absurd (H.forget.entry_key e' he') (Cache.kept?_eq_none.1 (c.kept?_invalidate k) e' he')
  gone_lt := by
    intro i hi
    rcases List.mem_append.1 hi with hi | hi
    · exact H.gone_lt i hi
    · rw [List.mem_singleton.1 hi]
      exact H.entry_lt e (Cache.kept?_eq_some hk).1
  gone_nodup := by
    refine List.Nodup.append H.gone_nodup (List.nodup_singleton _) ?_
    rw [List.disjoint_singleton]
    exact H.entry_not_mem e (Cache.kept?_eq_some hk).1
  old_lt := H.old_lt

/-- A token with the next serial number is granted.

**Proof sketch.** The only entry that may have been added has the token with the new number, which
is greater than all that were given out before. -/
lemma grant (H : Tidy k old gone c n) {load : Cache.Load Credentials} (hm : load ∈ c.loads)
    {t : Issued τ} (ht : t.serial = n) (now : τ) :
    Tidy k old gone (c.finish now load (some t)).2 (n + 1) := by
  have hentry (e) (he : e ∈ (c.finish now load (some t)).2.entries) :
      e = ⟨load.key, t, now⟩ ∨ e ∈ c.entries := by
    unfold Cache.finish at he
    dsimp only at he
    split at he
    · exact Cache.mem_placeEntry he
    · exact Or.inr he
  refine ⟨H.coherent.finish hm now _, ?_, ?_, ?_, ?_, ?_, H.gone_nodup, ?_⟩
  · intro e he
    rcases hentry e he with rfl | he
    · exact H.load_key load hm
    · exact H.entry_key e he
  · intro l hl
    rw [Cache.loads_finish] at hl
    exact H.load_key l (List.mem_filter.1 hl).1
  · intro e he
    rcases hentry e he with rfl | he
    · exact ht ▸ Nat.lt_succ_self _
    · exact Nat.lt_succ_of_lt (H.entry_lt e he)
  · intro e he
    rcases hentry e he with rfl | he
    · intro hg
      have hlt : t.serial < n := H.gone_lt _ hg
      omega
    · exact H.entry_not_mem e he
  · exact fun i hi => Nat.lt_succ_of_lt (H.gone_lt i hi)
  · exact fun i hi => Nat.lt_succ_of_lt (H.old_lt i hi)

/-- A token that is granted stands in the way of the next load, if the load that it is granted to
did so.

**Proof sketch.** If the load was current, its token is in the cache now, and is not old, so that no
load is needed. If it was superseded, it was not the one on the way. -/
lemma spare_finish_le (H : Tidy k old gone c n) {load : Cache.Load Credentials}
    (hm : load ∈ c.loads) {t : Issued τ} (ht : t.serial = n) (now : τ) :
    spare k old (c.finish now load (some t)).2 ≤ spare k old c := by
  have hkey := H.load_key load hm
  by_cases hg : c.generation load.key = load.generation
  · have hkept : (c.finish now load (some t)).2.kept? k = some ⟨k, t, now⟩ := by
      simp only [Cache.finish, hg, if_true]
      rw [← hkey]
      exact (Cache.kept?_install c now load.key load.key t).trans (if_pos rfl)
    have hnew : t.serial ∉ old := fun h => absurd (H.old_lt _ h) (by omega)
    rw [spare_of_kept hkept hnew]
    exact Nat.zero_le _
  · -- a load that was superseded is not the one that is on the way
    simp only [Cache.finish, hg, if_false]
    refine spare_le_spare (fun hnone => ?_) fun e hk => Or.inl hk
    refine Cache.flight?_eq_none.2 fun l hl => Cache.flight?_eq_none.1 hnone l ?_
    refine List.mem_filter.2 ⟨hl, ?_⟩
    have hne : (k, l) ≠ (load.key, load.id) := by
      rintro heq
      exact hg ((H.coherent.current_iff hm).2 (heq ▸ hl)).symm
    exact decide_eq_true hne

end Tidy

/-! ## Changes -/

namespace Balanced

/-- A change that only starts no load and takes no reason away. -/
lemma of_spare_le (H : Balanced k base old c n x) (ht : Tidy k old x.dropped c' n')
    (hs : spare k old c' ≤ spare k old c) : Balanced k base old c' n' x where
  tidy := ht
  starts_le := by
    have hle := H.starts_le
    omega

/-- The lifetime of tokens in the cache comes to its end.

**Proof sketch.** If more tokens become old, a load may be needed that was not; but then the token
in the cache is one of them, and it is counted as one that is old. -/
lemma outlive (H : Balanced k base old c n x) {is : List Nat}
    (hi : ∀ i ∈ is, ∃ e ∈ c.entries, e.value.serial = i) : Balanced k base (old ++ is) c n x where
  tidy :=
    { H.tidy with
      old_lt := by
        intro i h
        rcases List.mem_append.1 h with h | h
        · exact H.tidy.old_lt i h
        · obtain ⟨e, he, rfl⟩ := hi i h
          exact H.tidy.entry_lt e he }
  starts_le := by
    have hle := H.starts_le
    have hmono : old.toFinset.card ≤ (old ++ is).toFinset.card := by
      rw [List.toFinset_append]
      exact Finset.card_le_card Finset.subset_union_left
    have hone := spare_le_one k (old ++ is) c
    by_cases hspare : spare k (old ++ is) c = 1
    · obtain ⟨hflight, hkept⟩ := spare_eq_one_iff.1 hspare
      by_cases hold : ∀ e, c.kept? k = some e → e.value.serial ∈ old
      · have := spare_eq_one_iff.2 ⟨hflight, hold⟩
        omega
      · -- the token that stood in the way is a new one among the old
        simp only [not_forall] at hold
        obtain ⟨e, hk, he⟩ := hold
        have hlt : old.toFinset.card < (old ++ is).toFinset.card := by
          refine Finset.card_lt_card (Finset.ssubset_iff.2 ⟨e.value.serial, by simpa using he, ?_⟩)
          rw [Finset.insert_subset_iff, List.toFinset_append]
          refine ⟨?_, Finset.subset_union_left⟩
          rw [← List.toFinset_append, List.mem_toFinset]
          exact hkept e hk
        omega
    · omega

/-- **Every change** keeps the balance.

**Proof sketch.** The cases are those of the change. A load that is started uses up what was spare;
a token that is dropped or forgotten, and a load that failed, each allow for one more. -/
theorem change (H : Balanced k base old c n x) (h : Change k old c n y c' n') :
    Balanced k base old c' n' (x + y) := by
  have hle := H.starts_le
  cases h with
  | @shed p hlost =>
    have ht : Tidy k old x.dropped { c with entries := c.entries.filter p } n :=
      H.tidy.of_subset (H.tidy.coherent.filterEntries p) (fun _ he => (List.mem_filter.1 he).1)
        fun _ hl => hl
    change Balanced k base old _ n (x + 0)
    rw [add_zero]
    refine H.of_spare_le ht (spare_le_spare id fun e hk => ?_)
    by_cases hp : p e = true
    · exact Or.inl (ht.kept? (List.mem_filter.2 ⟨(Cache.kept?_eq_some hk).1, hp⟩))
    · exact Or.inr (hlost e (Cache.kept?_eq_some hk).1 (by simpa using hp))
  | forgot =>
    refine ⟨by simpa using H.tidy.forget, ?_⟩
    have hone := spare_le_one k old (c.invalidate k).2
    simp only [Figures.starts_add, Figures.fails_add, Figures.forgot_add, Figures.dropped_add,
      List.append_nil]
    omega
  | started hk hf =>
    refine ⟨by simpa using H.tidy.start hk hf, ?_⟩
    have hzero : spare k old (c.startLoad k) = 0 := spare_of_flight (Cache.flight?_startLoad c k)
    rw [spare_of_vacant hk hf] at hle
    simp only [Figures.starts_add, Figures.fails_add, Figures.forgot_add, Figures.dropped_add,
      List.append_nil, hzero]
    omega
  | renewed hk =>
    have ht := (H.tidy.drop hk).start (c.kept?_invalidate k) (c.flight?_invalidate k)
    refine ⟨ht, ?_⟩
    have hzero : spare k old ((c.invalidate k).2.startLoad k) = 0 :=
      spare_of_flight (Cache.flight?_startLoad _ k)
    simp only [Figures.starts_add, Figures.fails_add, Figures.forgot_add, Figures.dropped_add,
      List.length_append, List.length_singleton, hzero]
    omega
  | @failed load hm =>
    have ht := H.tidy.of_subset (H.tidy.coherent.dropLoad hm) (fun _ he => he)
      fun _ hl => (List.mem_filter.1 hl).1
    refine ⟨by simpa using ht, ?_⟩
    have hone := spare_le_one k old (c.dropLoad load)
    simp only [Figures.starts_add, Figures.fails_add, Figures.forgot_add, Figures.dropped_add,
      List.append_nil]
    omega
  | @granted load hm t ht now =>
    change Balanced k base old _ (n + 1) (x + 0)
    rw [add_zero]
    exact H.of_spare_le (H.tidy.grant hm ht now) (H.tidy.spare_finish_le hm ht now)

/-- **Any number of changes** keep the balance. -/
theorem changes (H : Balanced k base old c n x) (h : Changes k old c n y c' n') :
    Balanced k base old c' n' (x + y) := by
  induction h with
  | refl => simpa using H
  | step _ h ih =>
    rw [← add_assoc]
    exact ih.change h

end Balanced

end NodeKeeper.Supplier
