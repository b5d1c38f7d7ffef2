import NodeKeeper.Proofs.Cache.Protocol

/-!
# What a cache has got since a key was dropped

Whatever a cache has of a key that was dropped has come to it since: it was put later, or it came
with a load that was started later. A load that was on the way when the key was dropped leaves
nothing behind, however long it takes. This holds also if the clock is turned back, for nothing of
it depends on which entries have expired.

## Main definitions

* `Cache.Drift` — any number of steps, while the clock goes anywhere.
* `Cache.Since` — what a cache has of a key was put, or came with the loads from a certain one on.
* `Cache.Lacks` — a cache has nothing of a key.

## Main results

* `Cache.Ledger.Valid.drift` — a drift keeps a ledger valid.
* `Cache.Drift.entries_sublist` — nothing is installed but what is put, and what loads end with.
* `Cache.Since.step`, `Cache.Since.drift` — what a cache has got since stays of that kind.
* `Cache.since_of_supersedes` — once a key was put or dropped, all that the cache has of it came
  later.
* `Cache.Lacks.drift` — a cache that has nothing of a key gets nothing of it, as long as it is
  neither put nor loaded anew.
-/

namespace NodeKeeper.Cache

variable {κ ν τ : Type} [DecidableEq κ]

/-! ## Drifts -/

section Drift

variable [Add τ] [LE τ] [DecidableLE τ]

/-- Any number of steps, between which the clock may be set to any instant, and the history of them,
the latest event first. -/
inductive Drift (b : Ledger κ ν τ) : History κ ν τ → Ledger κ ν τ → Prop
  | refl : Drift b [] b
  | step {h es : History κ ν τ} {b' b'' : Ledger κ ν τ} (hd : Drift b h b')
      (hs : Step b' es b'') : Drift b (es ++ h) b''
  | reset {h : History κ ν τ} {b' : Ledger κ ν τ} (hd : Drift b h b') (now : τ) :
      Drift b h { b' with now }

variable {b b' b'' : Ledger κ ν τ} {h h' es : History κ ν τ} {k : κ} {l : Nat}

/-- Loads become no fewer. -/
lemma Step.length_flights_le (hs : Step b es b') : b.flights.length ≤ b'.flights.length := by
  cases hs with
  | start _ _ => simp
  | land _ _ => simp
  | _ => exact Nat.le_refl _

/-- A load that has landed has landed for good.

**Proof sketch.** Only the end of a load strikes off an account, and only that of an unfinished one.
A load that starts is put behind the others. -/
lemma Step.landed (hs : Step b es b') (hl : b.flights[l]? = some ⟨k, true⟩) :
    b'.flights[l]? = some ⟨k, true⟩ := by
  cases hs with
  | start _ _ =>
    rw [List.getElem?_append_left (List.getElem?_eq_some_iff.1 hl).1]
    exact hl
  | @land m _ ha _ =>
    have hne : m ≠ l := by
      rintro rfl
      exact absurd (ha.symm.trans hl) (by simp)
    rw [List.getElem?_set_ne hne]
    exact hl
  | _ => exact hl

/-- A load that ends has landed. -/
lemma Step.landed_of_ended (hs : Step b es b') {v : Option ν} {t : τ} (he : .ended l k v t ∈ es) :
    b'.flights[l]? = some ⟨k, true⟩ := by
  cases hs with
  | land ha value =>
    obtain ⟨rfl, rfl, -, -⟩ := Event.ended.inj (List.mem_singleton.1 he)
    exact List.getElem?_set_self (List.getElem?_eq_some_iff.1 ha).1
  | _ => exact absurd he (by simp)

namespace Drift

/-- A course is a drift: what it says about the clock is just not needed. -/
lemma of_course (hc : Course b h b') : Drift b h b' := by
  induction hc with
  | refl => exact refl
  | step _ hs ih => exact ih.step hs

/-- One drift after the other is a drift. -/
lemma trans (hd : Drift b h b') (hd' : Drift b' h' b'') : Drift b (h' ++ h) b'' := by
  induction hd' with
  | refl => exact hd
  | step _ hs ih =>
    rw [List.append_assoc]
    exact ih.step hs
  | reset _ now ih => exact ih.reset now

/-- Loads are only added to the accounts, and none is ever taken away. -/
lemma length_flights_le (hd : Drift b h b') : b.flights.length ≤ b'.flights.length := by
  induction hd with
  | refl => exact Nat.le_refl _
  | step _ hs ih => exact Nat.le_trans ih hs.length_flights_le
  | reset _ _ ih => exact ih

/-- Loads that have ended, by the history, have landed. -/
lemma landed_of_ended (hd : Drift b h b') {v : Option ν} {t : τ} (he : .ended l k v t ∈ h) :
    b'.flights[l]? = some ⟨k, true⟩ := by
  induction hd with
  | refl => exact absurd he (by simp)
  | step _ hs ih =>
    rcases List.mem_append.1 he with hlast | hearlier
    · exact hs.landed_of_ended hlast
    · exact hs.landed (ih hearlier)
  | reset _ _ ih => exact ih he

/-- A load that has landed does not end any more.

**Proof sketch.** By induction on the drift the account stays struck off, and a step that ended the
load again would need one that is not. -/
lemma not_mem_of_landed (hd : Drift b h b') {j : κ} (hl : b.flights[l]? = some ⟨j, true⟩)
    (v : Option ν) (t : τ) : .ended l k v t ∉ h := by
  have hstays : b'.flights[l]? = some ⟨j, true⟩ ∧ .ended l k v t ∉ h := by
    induction hd with
    | refl => exact ⟨hl, by simp⟩
    | step _ hs ih =>
      refine ⟨hs.landed ih.1, fun he => (List.mem_append.1 he).elim (fun hlast => ?_) ih.2⟩
      cases hs with
      | land ha value =>
        obtain ⟨rfl, -⟩ := Event.ended.inj (List.mem_singleton.1 hlast)
        exact absurd (ha.symm.trans ih.1) (by simp)
      | _ => exact absurd hlast (by simp)
    | reset _ _ ih => exact ih
  exact hstays.2

end Drift

/-- **Every drift** keeps a ledger valid. -/
theorem Ledger.Valid.drift (H : b.Valid) (hd : Drift b h b') : b'.Valid := by
  induction hd with
  | refl => exact H
  | step _ hs ih => exact ih.step hs
  | reset _ now ih => exact ih.of_coherent ih.coherent rfl rfl rfl

/-- Nothing is installed but what is put, and what loads end with.

**Proof sketch.** Looks and lists shed expired entries, drops remove some, and a load that fails
installs nothing. The other steps are excluded. -/
lemma Step.entries_sublist (hs : Step b es b') (hv : b.Valid) (hput : ∀ k v t, .put k v t ∉ es)
    (hend : ∀ l k v t, .ended l k (some v) t ∉ es) :
    b'.cache.entries.Sublist b.cache.entries := by
  have hsheds {c : Cache κ ν τ} (hs : b.cache.Sheds b.now c) :
      c.entries.Sublist b.cache.entries := by
    obtain ⟨p, rfl, -⟩ := hs
    exact List.filter_sublist
  have hlookup (k : κ) := hsheds (sheds_lookup hv.coherent.entry_unique b.now k)
  cases hs with
  | elapse _ => exact List.Sublist.refl _
  | lookup k => exact hlookup k
  | keys => exact hsheds (sheds_keys b.cache b.now)
  | put k v => exact absurd List.mem_cons_self (hput k v b.now)
  | drop k => exact List.filter_sublist
  | dropAll =>
    rw [invalidateAll_eq]
    exact List.nil_sublist _
  | ask _ => exact hlookup _
  | start _ _ => exact hlookup _
  | @land l k ha value =>
    obtain ⟨load, -, -, -, hclose⟩ := hv.close_eq ha value
    rw [hclose]
    cases value with
    | none => exact List.Sublist.refl _
    | some v => exact absurd List.mem_cons_self (hend l k v b.now)

/-- A cache in which nothing is put, and to which no load brings anything, has no entries at the end
but those that it had, and in the same order.

**Proof sketch.** The induction is on the drift, and each step leaves a sublist by
`Step.entries_sublist`. -/
lemma Drift.entries_sublist (hd : Drift b h b') (hv : b.Valid) (hput : ∀ k v t, .put k v t ∉ h)
    (hend : ∀ l k v t, .ended l k (some v) t ∉ h) :
    b'.cache.entries.Sublist b.cache.entries := by
  induction hd with
  | refl => exact List.Sublist.refl _
  | @step h es _ _ hd hs ih =>
    have hlast := hs.entries_sublist (hv.drift hd)
      (fun k v t hm => hput k v t (List.mem_append_left h hm))
      (fun l k v t hm => hend l k v t (List.mem_append_left h hm))
    exact hlast.trans (ih (fun k v t hm => hput k v t (List.mem_append_right es hm))
      (fun l k v t hm => hend l k v t (List.mem_append_right es hm)))
  | reset _ _ ih => exact ih hput hend

end Drift

/-! ## Since -/

/-- What a cache has of a key was put, or came with one of the loads from a certain number on; and
those who ask for the key now share such a load. -/
structure Since (k : κ) (n : Nat) (b : Ledger κ ν τ) (h : History κ ν τ) : Prop where
  shared : ∀ l, (k, l) ∈ b.cache.inFlight → n ≤ l
  kept : ∀ e, b.cache.kept? k = some e →
    (∃ t, .put k e.value t ∈ h) ∨ ∃ l t, n ≤ l ∧ .ended l k (some e.value) t ∈ h

namespace Since

variable {k : κ} {n : Nat} {b b' : Ledger κ ν τ} {h es : History κ ν τ}

/-- A key of which the cache has nothing. -/
lemma of_vacant (hk : b.cache.kept? k = none) (hf : b.cache.flight? k = none) :
    Since k n b h where
  shared := fun l hl => absurd hl (flight?_eq_none.1 hf l)
  kept := fun e he => absurd (hk.symm.trans he) (by simp)

/-- The history tells more. -/
lemma mono (H : Since k n b h) {h' : History κ ν τ} (hsub : h ⊆ h') : Since k n b h' where
  shared := H.shared
  kept := by
    intro e he
    rcases H.kept e he with ⟨t, hput⟩ | ⟨l, t, hle, hended⟩
    · exact Or.inl ⟨t, hsub hput⟩
    · exact Or.inr ⟨l, t, hle, hsub hended⟩

/-- A change after which the cache has no more of the key than before. -/
lemma of_le (H : Since k n b h)
    (hshared : ∀ l, (k, l) ∈ b'.cache.inFlight → (k, l) ∈ b.cache.inFlight)
    (hkept : ∀ e, b'.cache.kept? k = some e → b.cache.kept? k = some e) :
    Since k n b' (es ++ h) where
  shared := fun l hl => H.shared l (hshared l hl)
  kept := fun e he => (H.mono (List.subset_append_right es h)).kept e (hkept e he)

/-- What is put at any key comes since the load from which on the cache was fed. So nothing older
than that is left at the key in question. -/
lemma put (H : Since k n b h) (j : κ) (v : ν) :
    Since k n { b with cache := b.cache.put b.now j v } (.put j v b.now :: h) where
  shared := fun l hl => H.shared l (List.mem_filter.1 hl).1
  kept := by
    intro e he
    rw [Cache.put, kept?_install, kept?_supersede] at he
    split at he
    · next hj =>
      obtain rfl := Option.some.inj he
      exact Or.inl ⟨b.now, by simp [hj]⟩
    · exact (H.mono (List.subset_cons_self _ h)).kept e he

/-- A load that ends installs its value only if it is shared.

**Proof sketch.** An entry that is new is the value of the load, which was current and hence shared.
So it is told of as one that has ended since. -/
lemma land (H : Since k n b h) (hv : b.Valid) {l : Nat} {j : κ}
    (ha : b.flights[l]? = some ⟨j, false⟩) (value : Option ν) :
    Since k n { b with cache := b.cache.close b.now l value, flights := b.flights.set l ⟨j, true⟩ }
      (.ended l j value b.now :: h) := by
  obtain ⟨load, hm, rfl, rfl, hclose⟩ := hv.close_eq ha value
  rw [hclose]
  refine ⟨fun m hl => ?_, fun e he => ?_⟩
  · rw [finish_snd] at hl
    exact H.shared m (List.mem_filter.1 hl).1
  · rcases kept?_finish he with hold | ⟨rfl, hg, rfl⟩
    · exact (H.mono (List.subset_cons_self _ h)).kept e hold
    · have hshared := (hv.coherent.current_iff hm).1 hg
      exact Or.inr ⟨load.id, b.now, H.shared load.id hshared, List.mem_cons_self⟩

variable [Add τ] [LE τ] [DecidableLE τ]

/-- Looking at the cache takes nothing but entries out of it. -/
lemma of_sheds (H : Since k n b h) {c : Cache κ ν τ} (hs : b.cache.Sheds b.now c)
    (hv : b.Valid) : Since k n { b with cache := c } (es ++ h) := by
  obtain ⟨p, rfl, -⟩ := hs
  refine H.of_le (fun _ hl => hl) fun e he => ?_
  obtain ⟨hmem, rfl⟩ := kept?_eq_some he
  exact kept?_key hv.coherent.entry_unique (List.mem_filter.1 hmem).1

/-- **One step** brings nothing of a key but what is put, or comes with a later load.

**Proof sketch.** An entry is new only if it is put, or if a load ends that is shared; and the loads
that are started from now on have later numbers. -/
theorem step (H : Since k n b h) (hv : b.Valid) (hn : n ≤ b.flights.length) (hs : Step b es b') :
    Since k n b' (es ++ h) := by
  have hsheds (j : κ) := sheds_lookup hv.coherent.entry_unique b.now j
  cases hs with
  | elapse _ => exact H.of_le (fun _ hl => hl) fun _ he => he
  | lookup j => exact H.of_sheds (hsheds j) hv
  | keys => exact H.of_sheds (sheds_keys b.cache b.now) hv
  | put j v => exact H.put j v
  | drop j =>
    refine H.of_le (fun l hl => (List.mem_filter.1 hl).1) fun e he => ?_
    rw [invalidate, kept?_dropEntry] at he
    split at he
    · exact absurd he (by simp)
    · exact he
  | dropAll => exact of_vacant (b.cache.kept?_invalidateAll k) (b.cache.flight?_invalidateAll k)
  | ask _ => exact H.of_sheds (hsheds _) hv
  | @start j hl hf =>
    have hask : Since k n { b with cache := (b.cache.lookup b.now j).2 }
        ([.started b.cache.nextLoad j, .asked j true] ++ h) := H.of_sheds (hsheds j) hv
    refine ⟨fun l hl' => ?_, hask.kept⟩
    rcases List.mem_cons.1 hl' with hnew | hold
    · obtain ⟨-, rfl⟩ := Prod.mk.inj hnew
      rw [nextLoad_lookup, ← hv.length_flights]
      exact hn
    · exact hask.shared l hold
  | land ha value => exact H.land hv ha value

/-- **A drift** brings nothing of a key but what is put, or comes with a later load. -/
theorem drift (H : Since k n b h) (hv : b.Valid) (hn : n ≤ b.flights.length) {es : History κ ν τ}
    (hd : Drift b es b') : Since k n b' (es ++ h) := by
  induction hd with
  | refl => exact H
  | step hd hs ih =>
    rw [List.append_assoc]
    exact ih.step (hv.drift hd) (Nat.le_trans hn hd.length_flights_le) hs
  | reset _ _ ih => exact ⟨ih.shared, ih.kept⟩

end Since

section Supersedes

variable [Add τ] [LE τ] [DecidableLE τ] {k : κ} {b b' : Ledger κ ν τ} {h es : History κ ν τ}

/-- A step that supersedes the loads of a key leaves nothing of it but what it puts.

**Proof sketch.** Loads of a key are superseded by a value that is put at it, or by dropping it or
all keys. In each case the key has no shared load afterwards, and no entry but the one that was
put. -/
lemma Step.since (hs : Step b es b') (he : ∃ e ∈ es, e.supersedes k = true) (n : Nat) :
    Since k n b' es := by
  obtain ⟨e, hmem, hsup⟩ := he
  cases hs with
  | put j v =>
    obtain rfl := List.mem_singleton.1 hmem
    obtain rfl : j = k := by simpa [Event.supersedes] using hsup
    refine ⟨fun l hl => ?_, fun e he => Or.inl ⟨b.now, ?_⟩⟩
    · exact absurd (List.mem_filter.1 hl).2 (by simp)
    · rw [Cache.put, kept?_install, if_pos rfl] at he
      obtain rfl := Option.some.inj he
      exact List.mem_singleton_self _
  | drop j =>
    obtain rfl := List.mem_singleton.1 hmem
    obtain rfl : j = k := by simpa [Event.supersedes] using hsup
    exact .of_vacant (b.cache.kept?_invalidate j) (b.cache.flight?_invalidate j)
  | dropAll => exact .of_vacant (b.cache.kept?_invalidateAll k) (b.cache.flight?_invalidateAll k)
  | ask _ | land _ _ =>
    obtain rfl := List.mem_singleton.1 hmem
    exact absurd hsup (by simp [Event.supersedes])
  | start _ _ =>
    rcases List.mem_pair.1 hmem with rfl | rfl <;> exact absurd hsup (by simp [Event.supersedes])
  | elapse _ | lookup _ | keys => exact absurd hmem (by simp)

/-- **Once a key was put or dropped**, all that the cache has of it came later: no load that was
started before has left anything. -/
theorem since_of_supersedes (hv : b.Valid) (hd : Drift b h b')
    (he : ∃ e ∈ h, e.supersedes k = true) : Since k b.flights.length b' h := by
  induction hd with
  | refl => exact absurd he (by simp)
  | @step h es b' b'' hd hs ih =>
    obtain ⟨e, hmem, hsup⟩ := he
    rcases List.mem_append.1 hmem with hlast | hearlier
    · exact (hs.since ⟨e, hlast, hsup⟩ b.flights.length).mono (List.subset_append_left es h)
    · exact (ih ⟨e, hearlier, hsup⟩).step (hv.drift hd) hd.length_flights_le hs
  | reset _ _ ih => exact ⟨(ih he).shared, (ih he).kept⟩

end Supersedes

/-! ## Keys that a cache lacks -/

/-- The cache has nothing of the key: no entry, not even one that has expired, and no load that is
shared. -/
def Lacks (c : Cache κ ν τ) (k : κ) : Prop := c.kept? k = none ∧ c.flight? k = none

section Lacks

variable {c : Cache κ ν τ} {k : κ} {b b' : Ledger κ ν τ} {h es : History κ ν τ}

/-- A key that was dropped is lacking. -/
lemma lacks_invalidate (c : Cache κ ν τ) (k : κ) : (c.invalidate k).2.Lacks k :=
  ⟨c.kept?_invalidate k, c.flight?_invalidate k⟩

/-- A load that ends leaves nothing of a key whose loads are not shared.

**Proof sketch.** The load that lands is of another key, or it was superseded; for a current load of
the key would be shared. -/
lemma Lacks.land (H : b.cache.Lacks k) (hv : b.Valid) {l : Nat} {j : κ}
    (ha : b.flights[l]? = some ⟨j, false⟩) (value : Option ν) :
    (b.cache.close b.now l value).Lacks k := by
  obtain ⟨load, hm, rfl, rfl, hclose⟩ := hv.close_eq ha value
  rw [hclose]
  have hshared (m : Nat) : (k, m) ∉ b.cache.inFlight := flight?_eq_none.1 H.2 m
  refine ⟨?_, flight?_eq_none.2 fun m hl => ?_⟩
  · cases hk : (b.cache.finish b.now load value).2.kept? k with
    | none => rfl
    | some e =>
      rcases kept?_finish hk with hold | ⟨rfl, hg, -⟩
      · exact absurd hold (by simp [H.1])
      · exact absurd ((hv.coherent.current_iff hm).1 hg) (hshared load.id)
  · rw [finish_snd] at hl
    exact hshared m (List.mem_filter.1 hl).1

variable [Add τ] [LE τ] [DecidableLE τ]

/-- A cache that has nothing of a key, and only loses entries, has nothing of it afterwards. -/
lemma Lacks.sheds (H : c.Lacks k) {now : τ} {c' : Cache κ ν τ} (hs : c.Sheds now c') :
    c'.Lacks k := by
  obtain ⟨p, rfl, -⟩ := hs
  refine ⟨kept?_eq_none.2 fun e he => ?_, H.2⟩
  exact kept?_eq_none.1 H.1 e (List.mem_filter.1 he).1

/-- Somebody who asks for a key that is lacking has it loaded, if that can be. -/
lemma Lacks.request (H : c.Lacks k) (now : τ) (canLoad : Bool) :
    c.request now k canLoad = if canLoad then (.started c.nextLoad, c.startLoad k)
      else (.noLoader, c) := by
  have hlookup := lookup_of_kept?_none H.1 now
  rcases c.request_cases now k canLoad with ⟨v, hl, -⟩ | ⟨-, ⟨l, hf, -⟩ | ⟨-, hr⟩⟩
  · exact absurd hl (by simp [hlookup])
  · exact absurd hf (by simp [H.2])
  · rw [hr, hlookup]

/-- **One step** brings nothing of a key that is lacking, unless it is put, or a load of it is
started.

**Proof sketch.** Looks and lists only shed entries; drops leave less of each key. A value that is
put, and a load that is started, belong to another key by the assumptions, and a load of the key
that ends finds itself superseded. -/
theorem Lacks.step (H : b.cache.Lacks k) (hv : b.Valid) (hs : Step b es b')
    (hput : ∀ v t, .put k v t ∉ es) (hstart : ∀ l, .started l k ∉ es) : b'.cache.Lacks k := by
  have hlookup (j : κ) := H.sheds (sheds_lookup hv.coherent.entry_unique b.now j)
  cases hs with
  | elapse _ => exact H
  | lookup j => exact hlookup j
  | keys => exact H.sheds (sheds_keys b.cache b.now)
  | put j v =>
    have hj : j ≠ k := by
      rintro rfl
      exact hput v b.now (List.mem_singleton_self _)
    refine ⟨?_, flight?_eq_none.2 fun l hl => ?_⟩
    · rw [Cache.put, kept?_install, if_neg hj]
      exact H.1
    · exact flight?_eq_none.1 H.2 l (List.mem_filter.1 hl).1
  | drop j =>
    refine ⟨?_, flight?_eq_none.2 fun l hl => ?_⟩
    · rw [invalidate, kept?_dropEntry, kept?_supersede, H.1, ite_self]
    · exact flight?_eq_none.1 H.2 l (List.mem_filter.1 hl).1
  | dropAll => exact ⟨b.cache.kept?_invalidateAll k, b.cache.flight?_invalidateAll k⟩
  | ask _ => exact hlookup _
  | @start j _ _ =>
    have hj : k ≠ j := by
      rintro rfl
      exact hstart _ List.mem_cons_self
    refine ⟨(hlookup j).1, flight?_eq_none.2 fun l hl => ?_⟩
    rcases List.mem_cons.1 hl with hnew | hold
    · exact hj (Prod.mk.inj hnew).1
    · exact flight?_eq_none.1 (hlookup j).2 l hold
  | land ha value => exact H.land hv ha value

/-- **A drift** brings nothing of a key that is lacking, unless it is put, or a load of it is
started. -/
theorem Lacks.drift (H : b.cache.Lacks k) (hv : b.Valid) (hd : Drift b h b')
    (hput : ∀ v t, .put k v t ∉ h) (hstart : ∀ l, .started l k ∉ h) : b'.cache.Lacks k := by
  induction hd with
  | refl => exact H
  | @step h es b' b'' hd hs ih =>
    have hearlier := ih (fun v t hm => hput v t (List.mem_append_right es hm))
      fun l hm => hstart l (List.mem_append_right es hm)
    exact hearlier.step (hv.drift hd) hs (fun v t hm => hput v t (List.mem_append_left h hm))
      fun l hm => hstart l (List.mem_append_left h hm)
  | reset _ _ ih => exact ih hput hstart

end Lacks

end NodeKeeper.Cache
