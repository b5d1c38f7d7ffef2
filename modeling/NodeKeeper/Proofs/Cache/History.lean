import NodeKeeper.Proofs.Cache.Coherent
import Mathlib.Order.Defs.Unbundled

/-!
# What a key shows, by the history of its cache

A history is a list of what happened to a cache: values were put, keys were dropped, loads were
started and ended. It says nothing of tables and generations, and yet it settles what every key
shows.

## Main definitions

* `Cache.Event`, `Cache.History` — what happened to a cache, the latest event first.
* `Cache.unsuperseded` — nothing was put or dropped at a key since a load of it was started.
* `Cache.standing` — the value that a key stands at, and the instant when it was installed.
* `Cache.shown` — the value that a key shows at an instant.
* `Cache.Tells` — a cache is as its history tells.

## Main results

* `Cache.Tells.lookup_eq`, `Cache.Tells.mem_keys` — a cache that is as its history tells shows what
  the history says.
* `Cache.Tells.put`, `Cache.Tells.startLoad`, `Cache.Tells.finish` and others — every operation
  keeps a cache as its history tells.

## Implementation notes

An expired entry may be in the table or not, depending on whether somebody looked. A cache is
therefore as its history tells if an entry that it lacks has expired, and expiry is for good as long
as the clock is not turned back. Instants need not be ordered linearly for this, as doubles are not.
-/

namespace NodeKeeper.Cache

/-- What happened to a cache. -/
inductive Event (κ ν τ : Type) where
  /-- A value was put. -/
  | put (k : κ) (v : ν) (t : τ)
  /-- A key was dropped. -/
  | dropped (k : κ)
  /-- All keys were dropped. -/
  | droppedAll
  /-- Somebody asked for a key, who could have it loaded or not. -/
  | asked (k : κ) (canLoad : Bool)
  /-- A load of a key was started. -/
  | started (load : Nat) (k : κ)
  /-- A load of a key ended, with a value or without one. -/
  | ended (load : Nat) (k : κ) (value : Option ν) (t : τ)

/-- What happened to a cache, the latest event first. -/
abbrev History (κ ν τ : Type) : Type := List (Event κ ν τ)

variable {κ ν τ : Type} [DecidableEq κ]

/-- The event supersedes all loads of a key that were started before. -/
def Event.supersedes (k : κ) : Event κ ν τ → Bool
  | put j _ _ | dropped j => j = k
  | droppedAll => true
  | asked _ _ | started _ _ | ended _ _ _ _ => false

omit [DecidableEq κ] in
/-- The event is that a value was put. -/
def Event.isPut : Event κ ν τ → Bool
  | put _ _ _ => true
  | _ => false

/-- The event is the start of a load of a key. -/
def Event.starts (l : Nat) (k : κ) : Event κ ν τ → Bool
  | started m j => m = l && j = k
  | _ => false

/-- A load of a key was started, and no event has superseded it since. -/
def unsuperseded (l : Nat) (k : κ) : History κ ν τ → Bool
  | [] => false
  | e :: older => e.starts l k || !e.supersedes k && unsuperseded l k older

/-- The value that a key stands at, and the instant when it was installed: the latest event that
settles the key is a put, or the end of an unsuperseded load with a value. -/
def standing (k : κ) : History κ ν τ → Option (ν × τ)
  | [] => none
  | .put j v t :: older => if j = k then some (v, t) else standing k older
  | .dropped j :: older => if j = k then none else standing k older
  | .droppedAll :: _ => none
  | .ended l j (some v) t :: older =>
    if j = k ∧ unsuperseded l k older then some (v, t) else standing k older
  | .asked _ _ :: older | .started _ _ :: older | .ended _ _ none _ :: older => standing k older

section Lifetime

variable [Add τ] [LE τ] [DecidableLE τ]

/-- What was installed at an instant has not reached the end of its lifetime. -/
def alive (ttl : Option τ) (now installed : τ) : Bool :=
  match ttl with
  | none => true
  | some d => !decide (installed + d ≤ now)

omit [DecidableEq κ] in
/-- The cache asks of an entry just what the history asks of a value: whether the lifetime since it
was installed is over. -/
lemma isFresh_eq_alive (c : Cache κ ν τ) (now : τ) (e : Entry κ ν τ) :
    c.isFresh now e = alive c.ttl now e.installed := by
  unfold isFresh alive
  cases c.ttl <;> rfl

/-- The value that a key shows at an instant: the one that it stands at, as long as that lives. -/
def shown (ttl : Option τ) (now : τ) (k : κ) (h : History κ ν τ) : Option ν :=
  (standing k h).bind fun s => if alive ttl now s.2 then some s.1 else none

/-- Expiry is for good, as long as the clock is not turned back. -/
lemma alive_eq_false_of_le [IsTrans τ (· ≤ ·)] {ttl : Option τ} {now later t : τ}
    (hle : now = later ∨ now ≤ later) (h : alive ttl now t = false) :
    alive ttl later t = false := by
  rcases hle with rfl | hle
  · exact h
  · cases ttl with
    | none => simp [alive] at h
    | some d =>
      simp only [alive, Bool.not_eq_eq_eq_not, Bool.not_false, decide_eq_true_eq] at h ⊢
      exact trans_of (· ≤ ·) h hle

/-- A cache is as its history tells. -/
structure Tells (c : Cache κ ν τ) (now : τ) (h : History κ ν τ) : Prop where
  coherent : c.Coherent
  /-- An entry is what its key stands at. -/
  installed : ∀ k e, c.kept? k = some e → standing k h = some (e.value, e.installed)
  /-- What a key without an entry stands at has expired. -/
  expired : ∀ k s, standing k h = some s → c.kept? k = none → alive c.ttl now s.2 = false
  /-- The current loads are those that were not superseded. -/
  current_iff : ∀ l ∈ c.loads,
    l.generation = c.generation l.key ↔ unsuperseded l.id l.key h = true

namespace Tells

variable {c : Cache κ ν τ} {now : τ} {h : History κ ν τ}

/-- A cache in which nothing was done has no history. -/
lemma new (ttl : Option τ) (name : String) (now : τ) :
    Tells ({ ttl, name } : Cache κ ν τ) now [] where
  coherent := Coherent.new ttl name
  installed := by simp [kept?]
  expired := by simp [standing]
  current_iff := by simp

/-! ### What shows -/

/-- Looking a key up shows what the history says. -/
theorem lookup_eq (H : Tells c now h) (k : κ) : (c.lookup now k).1 = shown c.ttl now k h := by
  rw [lookup_fst, shown]
  cases hk : c.kept? k with
  | some e =>
    rw [H.installed k e hk]
    simp [isFresh_eq_alive]
  | none =>
    cases hs : standing k h with
    | none => rfl
    | some s => simp [H.expired k s hs hk]

/-- The keys that are listed are those that show something.

**Proof sketch.** A key is listed if it has a fresh entry. Keys are unique among the entries, so
that this is the entry that `lookup` finds. -/
theorem mem_keys (H : Tells c now h) (k : κ) :
    k ∈ (c.keys now).1 ↔ (shown c.ttl now k h).isSome := by
  rw [← H.lookup_eq, lookup_fst, mem_keys_iff]
  constructor
  · rintro ⟨e, he, rfl, hf⟩
    simp [kept?_key H.coherent.entry_unique he, hf]
  · cases hk : c.kept? k with
    | none => simp
    | some e =>
      obtain ⟨he, hek⟩ := kept?_eq_some hk
      by_cases hf : c.isFresh now e <;> simp [hf]
      exact ⟨e, he, hek, hf⟩

/-- The keys that a cache lists are different from each other, as it has at most one entry for
each. -/
lemma nodup_keys (H : Tells c now h) : (c.keys now).1.Nodup :=
  H.coherent.entry_unique.sublist (List.filter_sublist.map _)

/-- A load of a key that shows something is not current. -/
lemma shown_eq_none (H : Tells c now h) {l : Load κ} (hl : l ∈ c.loads)
    (hg : l.generation = c.generation l.key) : shown c.ttl now l.key h = none := by
  have hf := (H.coherent.current_iff hl).1 hg
  have hk : c.kept? l.key = none :=
    kept?_eq_none.2 fun e he hek => H.coherent.apart e he _ hf hek.symm
  rw [← H.lookup_eq, lookup_fst, hk]
  rfl

/-! ### Time and looks -/

/-- Time may pass. -/
lemma advance [IsTrans τ (· ≤ ·)] (H : Tells c now h) {later : τ}
    (hle : now = later ∨ now ≤ later) : Tells c later h where
  coherent := H.coherent
  installed := H.installed
  expired := fun k s hs hk => alive_eq_false_of_le hle (H.expired k s hs hk)
  current_iff := H.current_iff

/-- Expired entries may be shed.

**Proof sketch.** Entries that are left are told of as before. If an entry was shed that was told
of, it had expired, which is the other thing that the history allows. -/
lemma sheds (H : Tells c now h) {c' : Cache κ ν τ} (hs : c.Sheds now c') : Tells c' now h := by
  have hc' := H.coherent.sheds hs
  obtain ⟨p, rfl, hp⟩ := hs
  refine ⟨hc', ?_, ?_, H.current_iff⟩
  · intro k e hk
    obtain ⟨he, rfl⟩ := kept?_eq_some hk
    exact H.installed _ e (kept?_key H.coherent.entry_unique (List.mem_filter.1 he).1)
  · intro k s hst hk
    cases hk' : c.kept? k with
    | none => exact H.expired k s hst hk'
    | some e =>
      obtain ⟨he, rfl⟩ := kept?_eq_some hk'
      have hpe : p e = false := by
        by_contra hpe
        exact kept?_eq_none.1 hk e (List.mem_filter.2 ⟨he, by simpa using hpe⟩) rfl
      rw [H.installed _ e hk'] at hst
      have := hp e he hpe
      rw [isFresh_eq_alive] at this
      rwa [← Option.some.inj hst]

/-- Looking up a key does not change what the cache tells of its history. An entry that it takes out
has expired, and shows nothing by the history either. -/
lemma lookup (H : Tells c now h) (k : κ) : Tells (c.lookup now k).2 now h :=
  H.sheds (sheds_lookup H.coherent.entry_unique now k)

/-- Nor does listing the keys, which takes out all expired entries at once. -/
lemma keys (H : Tells c now h) : Tells (c.keys now).2 now h :=
  H.sheds (sheds_keys c now)

/-! ### Changes from outside -/

/-- After a key is superseded, its loads are not current.

**Proof sketch.** The loads of the superseded key fall behind its generation, and those of other
keys are judged as before. -/
lemma supersede_current_iff (H : Tells c now h) {k : κ} {e : Event κ ν τ}
    (hs : ∀ j, e.supersedes j = decide (k = j)) (he : ∀ l j, e.starts l j = false) :
    ∀ l ∈ c.loads, l.generation = (c.supersede k).generation l.key ↔
      unsuperseded l.id l.key (e :: h) = true := by
  intro l hl
  rw [generation_supersede, unsuperseded, he, hs]
  by_cases hk : k = l.key
  · have := H.coherent.generation_le l hl
    simp only [hk, if_true, decide_true, Bool.not_true, Bool.false_and, Bool.or_false,
      Bool.false_eq_true, iff_false]
    omega
  · simp [hk, Ne.symm hk, H.current_iff l hl]

/-- A value that is put is told of as the last thing that happened: it stands from now on, and the
loads of its key are superseded.

**Proof sketch.** At the key itself the new value is both kept and told of. At all other keys
neither the cache nor the history has changed. -/
theorem put (H : Tells c now h) (k : κ) (v : ν) :
    Tells (c.put now k v) now (.put k v now :: h) where
  coherent := H.coherent.put now k v
  installed := by
    intro j e hj
    simp only [Cache.put, kept?_install, standing] at hj ⊢
    split at hj
    · next hkj =>
      cases hj
      simp [hkj]
    · next hkj => simpa [hkj] using H.installed j e hj
  expired := by
    intro j s hst hj
    simp only [Cache.put, kept?_install, standing] at hj hst
    split at hj
    · simp at hj
    · next hkj => exact H.expired j s (by simpa [hkj] using hst) hj
  current_iff := H.supersede_current_iff (fun _ => rfl) (fun _ _ => rfl)

/-- A key that is dropped is told of in the same way. Nothing stands at it from now on, and its
loads are superseded.

**Proof sketch.** At the key itself nothing is kept, and nothing stands. At all other keys neither
the cache nor the history has changed. -/
theorem invalidate (H : Tells c now h) (k : κ) :
    Tells (c.invalidate k).2 now (.dropped k :: h) where
  coherent := H.coherent.invalidate k
  installed := by
    intro j e hj
    simp only [Cache.invalidate, kept?_dropEntry, standing] at hj ⊢
    split at hj
    · simp at hj
    · next hkj => simpa [hkj] using H.installed j e hj
  expired := by
    intro j s hst hj
    simp only [Cache.invalidate, kept?_dropEntry, standing] at hj hst
    split at hst
    · simp at hst
    · next hkj => exact H.expired j s hst (by simpa [hkj] using hj)
  current_iff := H.supersede_current_iff (fun _ => rfl) (fun _ _ => rfl)

/-- If all keys are dropped, nothing stands at any of them from now on, and all loads are
superseded. -/
theorem invalidateAll (H : Tells c now h) : Tells c.invalidateAll now (.droppedAll :: h) where
  coherent := H.coherent.invalidateAll
  installed := by
    intro j e hj
    simp [invalidateAll_eq, kept?] at hj
  expired := by simp [standing]
  current_iff := by
    intro l hl
    have hl' : l ∈ c.invalidateAll.loads := hl
    rw [H.coherent.invalidateAll.current_iff hl']
    simp [invalidateAll_eq, unsuperseded, Event.supersedes, Event.starts]

/-! ### Loads -/

/-- It changes nothing that somebody asked. -/
lemma asked (H : Tells c now h) (k : κ) (canLoad : Bool) :
    Tells c now (.asked k canLoad :: h) where
  coherent := H.coherent
  installed := H.installed
  expired := H.expired
  current_iff := by simpa [unsuperseded, Event.supersedes, Event.starts] using H.current_iff

/-- A load that is started is told of under its number. It is current from now on, as no other load
of its key was when it started.

**Proof sketch.** The load that is new remembers the present generation, and the event that tells of
it is the last one. The other loads have smaller numbers, so the event is not about them. -/
theorem startLoad (H : Tells c now h) {k : κ} (he : c.kept? k = none)
    (hf : ∀ id, (k, id) ∉ c.inFlight) :
    Tells (c.startLoad k) now (.started c.nextLoad k :: h) where
  coherent := H.coherent.startLoad he hf
  installed := H.installed
  expired := H.expired
  current_iff := by
    intro l hl
    rcases List.mem_cons.1 hl with rfl | hl
    · simp [Cache.startLoad, unsuperseded, Event.starts]
    · have hne : c.nextLoad ≠ l.id := (Nat.ne_of_lt (H.coherent.load_lt l hl)).symm
      simpa [Cache.startLoad, unsuperseded, Event.supersedes, Event.starts, hne]
        using H.current_iff l hl

/-- The end of a load installs its value if and only if the history says so.

**Proof sketch.** Whether the load is current can be told by its generation, and by the history. If
it is, its value is installed, and stands from now on; if it is not, or if it failed, neither the
entries nor what stands are changed. -/
theorem finish (H : Tells c now h) {l : Load κ} (hl : l ∈ c.loads) (value : Option ν) :
    Tells (c.finish now l value).2 now (.ended l.id l.key value now :: h) := by
  have hcur : ∀ m ∈ (c.dropLoad l).loads, m.generation = c.generation m.key ↔
      unsuperseded m.id m.key (.ended l.id l.key value now :: h) = true := by
    intro m hm
    simpa [unsuperseded, Event.supersedes, Event.starts]
      using H.current_iff m (List.mem_filter.1 hm).1
  have hcoh := H.coherent.finish hl now value
  unfold Cache.finish at hcoh ⊢
  cases value with
  | none => exact ⟨hcoh, H.installed, H.expired, hcur⟩
  | some v =>
    have hiff := H.current_iff l hl
    by_cases hg : c.generation l.key = l.generation
    · have hu := hiff.1 hg.symm
      simp only [hg, if_true] at hcoh ⊢
      refine ⟨hcoh, ?_, ?_, hcur⟩
      · intro j e hj
        replace hj : (c.install now l.key v).kept? j = some e := hj
        simp only [kept?_install, standing] at hj ⊢
        split at hj
        · next hkj =>
          cases hj
          simp [← hkj, hu]
        · next hkj => simpa [hkj] using H.installed j e hj
      · intro j s hst hj
        replace hj : (c.install now l.key v).kept? j = none := hj
        simp only [kept?_install, standing] at hj hst
        split at hj
        · simp at hj
        · next hkj => exact H.expired j s (by simpa [hkj] using hst) hj
    · have hu : unsuperseded l.id l.key h ≠ true := fun hu => hg (hiff.2 hu).symm
      have hst : ∀ j, standing j (.ended l.id l.key (some v) now :: h) = standing j h := by
        intro j
        rw [standing, if_neg]
        rintro ⟨rfl, hj⟩
        exact hu hj
      simp only [hg, if_false] at hcoh ⊢
      exact ⟨hcoh, fun j e hj => (hst j).trans (H.installed j e hj),
        fun j s hs => H.expired j s ((hst j).symm.trans hs), hcur⟩

end Tells

end Lifetime

end NodeKeeper.Cache
