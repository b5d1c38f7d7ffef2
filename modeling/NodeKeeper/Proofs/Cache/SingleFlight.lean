import NodeKeeper.Proofs.Cache.Protocol

/-!
# One load at a time

A load of a key is *current*, by the history of its cache, if it has not finished and nothing was
put or dropped at its key since it was started. A key never has two current loads, so that two loads
of it that are on the way together were started on either side of a change from outside.

## Main definitions

* `Cache.Current` — a load has not finished and was not superseded.
* `Cache.Vacant` — a key shows nothing and has no current load.
* `Cache.Orderly` — every load was started when its key had no current load.
* `Cache.Failed` — a current load of a key failed, and nothing came of it since.
* `Cache.starts` — the loads of a key that were started.

## Main results

* `Cache.Orderly.superseded_between` — something superseded the earlier one of two loads of a key
  that are on the way together before the later one was started.
* `Cache.Sound.orderly_course` — every course is orderly.
* `Cache.Sound.vacant_of_failed` — a key stays vacant after its current load has failed, until
  something is put at it or somebody asks for it.
* `Cache.Sound.starts_course` — those who ask for a vacant key start one load together.
-/

namespace NodeKeeper.Cache

variable {κ ν τ : Type} [DecidableEq κ]

/-- A load has not finished, and nothing was put or dropped at its key since it was started. -/
def Current (l : Nat) (k : κ) (h : History κ ν τ) : Prop :=
  Unfinished l k h ∧ unsuperseded l k h = true

/-- Every load was started when its key had no current load, under a number higher than those
before. -/
def Orderly : History κ ν τ → Prop
  | [] => True
  | .started m k :: older =>
    (∀ l j, .started l j ∈ older → l < m) ∧ (∀ l, ¬ Current l k older) ∧ Orderly older
  | .put _ _ _ :: older | .dropped _ :: older | .droppedAll :: older | .asked _ _ :: older
  | .ended _ _ _ _ :: older => Orderly older

/-- A current load of a key failed, and since then nothing was put at the key, and nobody asked for
it who could have it loaded. -/
def Failed (k : κ) : History κ ν τ → Prop
  | [] => False
  | e :: older =>
    (∃ l t, e = .ended l k none t ∧ unsuperseded l k older = true) ∨
      (∀ v t, e ≠ .put k v t) ∧ e ≠ .asked k true ∧ Failed k older

/-- The load of a key that an event starts. -/
def Event.start? (k : κ) : Event κ ν τ → Option Nat
  | started l j => if j = k then some l else none
  | put _ _ _ | dropped _ | droppedAll | asked _ _ | ended _ _ _ _ => none

/-- The loads of a key that were started, the latest first. -/
def starts (k : κ) (h : History κ ν τ) : List Nat := h.filterMap (Event.start? k)

/-! ## Histories -/

section History

variable {l m : Nat} {k : κ} {e : Event κ ν τ} {h : History κ ν τ}

/-- The loads that were started at a key are those whose start is in the history. -/
lemma mem_starts : l ∈ starts k h ↔ .started l k ∈ h := by
  rw [starts, List.mem_filterMap]
  constructor
  · rintro ⟨e, he, hl⟩
    cases e with
    | started m j =>
      simp only [Event.start?, Option.ite_none_right_eq_some, Option.some.injEq] at hl
      obtain ⟨rfl, rfl⟩ := hl
      exact he
    | _ => simp [Event.start?] at hl
  · exact fun he => ⟨_, he, by simp [Event.start?]⟩

/-- The loads that were started in a longer history are those of its later part, and then those of
its earlier part. -/
lemma starts_append (k : κ) (h h' : History κ ν τ) :
    starts k (h ++ h') = starts k h ++ starts k h' :=
  List.filterMap_append

/-- Without a start in the history, no load was started at the key. -/
lemma starts_eq_nil (hn : ∀ l, .started l k ∉ h) : starts k h = [] :=
  List.eq_nil_iff_forall_not_mem.2 fun l hl => hn l (mem_starts.1 hl)

/-- A current load was started by the last event, or it was current before.

**Proof sketch.** The last event is neither the start of the load nor one that supersedes it, so all
that makes it current stands in the history before. -/
lemma Current.of_cons (hc : Current l k (e :: h)) (he : e ≠ .started l k) : Current l k h := by
  obtain ⟨⟨hs, hf⟩, hu⟩ := hc
  have hstart : e.starts l k = false := by
    cases e with
    | started m j =>
      by_contra hn
      simp only [Event.starts, Bool.and_eq_false_imp, decide_eq_true_eq, decide_eq_false_iff_not,
        not_forall, not_not] at hn
      exact he (by rw [hn.1, hn.2])
    | _ => rfl
  rw [unsuperseded, hstart, Bool.false_or, Bool.and_eq_true] at hu
  refine ⟨⟨?_, fun v t hm => hf v t (List.mem_cons_of_mem _ hm)⟩, hu.2⟩
  exact (List.mem_cons.1 hs).resolve_left (Ne.symm he)

/-- A current load stays current until it ends or is superseded. -/
lemma Current.cons (hc : Current l k h) (hs : e.supersedes k = false)
    (he : ∀ v t, e ≠ .ended l k v t) : Current l k (e :: h) := by
  obtain ⟨⟨hm, hf⟩, hu⟩ := hc
  refine ⟨⟨List.mem_cons_of_mem _ hm, fun v t hmem => ?_⟩, by simp [unsuperseded, hs, hu]⟩
  rcases List.mem_cons.1 hmem with heq | hmem
  · exact he v t heq.symm
  · exact hf v t hmem

/-- A load stays current as long as its key is not superseded, and the load does not end. -/
lemma Current.append {es : History κ ν τ} (hc : Current l k h)
    (hs : ∀ e ∈ es, e.supersedes k = false) (he : ∀ v t, .ended l k v t ∉ es) :
    Current l k (es ++ h) := by
  induction es with
  | nil => exact hc
  | cons e es ih =>
    have htail := ih (fun e' he' => hs e' (List.mem_cons_of_mem _ he'))
      fun v t hm => he v t (List.mem_cons_of_mem _ hm)
    refine htail.cons (hs e List.mem_cons_self) fun v t heq => he v t ?_
    rw [heq]
    exact List.mem_cons_self

/-- Something superseded a load that is superseded after it was started.

**Proof sketch.** The induction is on the history. The last event supersedes the key, or it is not
the start of the load and the rest of the history has such an event. -/
lemma exists_supersedes (hs : .started l k ∈ h) (hu : unsuperseded l k h = false) :
    ∃ h₁ e h₂, h = h₁ ++ e :: h₂ ∧ e.supersedes k = true ∧ .started l k ∈ h₂ := by
  induction h with
  | nil => simp at hs
  | cons e h ih =>
    simp only [unsuperseded, Bool.or_eq_false_iff, Bool.and_eq_false_imp] at hu
    have hmem : .started l k ∈ h := by
      refine (List.mem_cons.1 hs).resolve_left ?_
      rintro rfl
      simp [Event.starts] at hu
    by_cases he : e.supersedes k = true
    · exact ⟨[], e, h, rfl, he, hmem⟩
    · obtain ⟨h₁, e', h₂, rfl, he', hm⟩ := ih hmem (hu.2 (by simpa using he))
      exact ⟨e :: h₁, e', h₂, rfl, he', hm⟩

/-- What has happened in an orderly history so far was orderly at any time. -/
lemma Orderly.append_right {h₁ h₂ : History κ ν τ} (h : Orderly (h₁ ++ h₂)) : Orderly h₂ := by
  induction h₁ with
  | nil => exact h
  | cons e h₁ ih =>
    cases e with
    | started m k => exact ih h.2.2
    | _ => exact ih h

/-- Of two loads of a key that are on the way together, the earlier one was superseded before the
later one was started.

**Proof sketch.** When the later one was started, the earlier one was on the way already and not
current, so that something has superseded it. -/
theorem Orderly.superseded_between (H : Orderly h) (hl : Unfinished l k h)
    (hm : Unfinished m k h) (hlt : l < m) :
    ∃ h₁ h₂ h₃ e, h = h₁ ++ .started m k :: h₂ ++ e :: h₃ ∧ e.supersedes k = true ∧
      .started l k ∈ h₃ := by
  obtain ⟨h₁, h₂, rfl⟩ := List.append_of_mem hm.1
  obtain ⟨hnum, hcur, -⟩ := H.append_right
  have hmem : .started l k ∈ h₂ := by
    rcases List.mem_append.1 hl.1 with h₁l | hl'
    · -- a load that was started after this one would have a higher number
      obtain ⟨h₃, h₄, rfl⟩ := List.append_of_mem h₁l
      rw [List.append_assoc] at H
      have := H.append_right.1 m k (by simp)
      omega
    · refine (List.mem_cons.1 hl').resolve_left fun heq => ?_
      cases heq
      exact Nat.lt_irrefl _ hlt
  have hunf : Unfinished l k h₂ := ⟨hmem, fun v t hv => hl.2 v t (by simp [hv])⟩
  have hu : unsuperseded l k h₂ = false := by
    by_contra hu
    exact hcur l ⟨hunf, by simpa using hu⟩
  obtain ⟨h₃, e, h₄, rfl, he, hl₄⟩ := exists_supersedes hmem hu
  exact ⟨h₁, h₃, h₄, e, by simp, he, hl₄⟩

end History

variable [Add τ] [LE τ] [DecidableLE τ]

/-- A key shows nothing and has no current load. -/
structure Vacant (ttl : Option τ) (now : τ) (k : κ) (h : History κ ν τ) : Prop where
  shown_eq_none : shown ttl now k h = none
  not_current : ∀ l, ¬ Current l k h

section Vacant

variable {l : Nat} {k : κ} {e : Event κ ν τ} {h : History κ ν τ} {ttl : Option τ} {now : τ}

/-- A key shows nothing if nothing stands at it, or if the lifetime of what stands at it is over. -/
lemma shown_eq_none_iff :
    shown ttl now k h = none ↔ ∀ s, standing k h = some s → alive ttl now s.2 = false := by
  rw [shown]
  cases standing k h with
  | none => simp
  | some s => by_cases ha : alive ttl now s.2 <;> simp [ha]

/-- A vacant key stays vacant unless something is put at it or a load of it is started.

**Proof sketch.** What stands at the key is changed only by what is put at it, by a drop, and by the
end of a current load. The first is excluded, the second one leaves nothing, and a load of the key
that ends was superseded. -/
lemma Vacant.cons (H : Vacant ttl now k h) (hput : ∀ v t, e ≠ .put k v t)
    (hstart : ∀ l, e ≠ .started l k)
    (hend : ∀ l v t, e = .ended l k v t → unsuperseded l k h = false) :
    Vacant ttl now k (e :: h) where
  shown_eq_none := by
    have hh := H.shown_eq_none
    rw [shown_eq_none_iff] at hh ⊢
    intro s hs
    cases e with
    | put j v t =>
      have hj : j ≠ k := fun hj => hput v t (by rw [hj])
      exact hh s (by simpa [standing, hj] using hs)
    | dropped j =>
      by_cases hj : j = k
      · simp [standing, hj] at hs
      · exact hh s (by simpa [standing, hj] using hs)
    | droppedAll => simp [standing] at hs
    | ended l j value t =>
      cases value with
      | none => exact hh s hs
      | some v =>
        have hu : ¬ (j = k ∧ unsuperseded l k h = true) := by
          rintro ⟨rfl, hu⟩
          simp [hend l _ t rfl] at hu
        exact hh s (by simpa [standing, hu] using hs)
    | asked j c => exact hh s hs
    | started l j => exact hh s hs
  not_current := fun l hl => H.not_current l (hl.of_cons (hstart l))

omit [Add τ] [LE τ] [DecidableLE τ] in
/-- A failure that is not among the last events was there before them, and they did not put
anything.

**Proof sketch.** The induction is on the last events. None of them is the failure, so each of them
is one that the failure has outlasted. -/
lemma Failed.of_append {es : History κ ν τ} (hf : Failed k (es ++ h))
    (hes : ∀ l t, .ended l k none t ∉ es) :
    (∀ v t, .put k v t ∉ es) ∧ .asked k true ∉ es ∧ Failed k h := by
  induction es with
  | nil => exact ⟨by simp, by simp, hf⟩
  | cons e es ih =>
    rcases hf with ⟨l, t, rfl, -⟩ | ⟨hput, hask, hf⟩
    · exact absurd List.mem_cons_self (hes l t)
    · obtain ⟨hput', hask', hf'⟩ := ih hf fun l t hm => hes l t (List.mem_cons_of_mem _ hm)
      refine ⟨fun v t hm => ?_, fun hm => ?_, hf'⟩
      · exact (List.mem_cons.1 hm).elim (fun heq => hput v t heq.symm) (hput' v t)
      · exact (List.mem_cons.1 hm).elim (fun heq => hask heq.symm) hask'

omit [Add τ] [LE τ] [DecidableLE τ] in
/-- A failure counts until something is put at the key or somebody asks for it. -/
lemma Failed.append {es : History κ ν τ} (hf : Failed k h) (hput : ∀ v t, .put k v t ∉ es)
    (hask : .asked k true ∉ es) : Failed k (es ++ h) := by
  induction es with
  | nil => exact hf
  | cons e es ih =>
    refine Or.inr ⟨fun v t he => hput v t (by simp [he]), fun he => hask (by simp [he]), ih ?_ ?_⟩
    · exact fun v t hm => hput v t (List.mem_cons_of_mem _ hm)
    · exact fun hm => hask (List.mem_cons_of_mem _ hm)

end Vacant

/-- Every load that is started gets an account, and none is lost.

**Proof sketch.** Only the steps that start or end a load touch the accounts. A start adds one, of
the key for which it is; at an end the account keeps its key. -/
lemma Step.countP_flights {b b' : Ledger κ ν τ} {es : History κ ν τ} (hs : Step b es b') (k : κ) :
    b'.flights.countP (fun a => a.key = k) =
      b.flights.countP (fun a => a.key = k) + (starts k es).length := by
  cases hs with
  | @start j =>
    rw [List.countP_append]
    by_cases hj : j = k <;> simp [starts, Event.start?, hj]
  | @land l j ha value =>
    -- the account keeps its key
    have hkeys : (b.flights.set l ⟨j, true⟩).map Account.key = b.flights.map Account.key := by
      obtain ⟨hlt, hget⟩ := List.getElem?_eq_some_iff.1 ha
      refine List.ext_getElem? fun m => ?_
      simp only [List.getElem?_map, List.getElem?_set]
      by_cases hm : l = m
      · subst hm
        simp [hlt, hget]
      · simp [hm]
    have hcount := congrArg (List.countP fun i => decide (i = k)) hkeys
    rw [List.countP_map, List.countP_map] at hcount
    exact hcount
  | _ => rfl

/-- In a course, the accounts of a key become more by the loads of the key that are started in
it. -/
lemma Course.countP_flights {b b' : Ledger κ ν τ} {es : History κ ν τ} (hc : Course b es b')
    (k : κ) :
    b'.flights.countP (fun a => a.key = k) =
      b.flights.countP (fun a => a.key = k) + (starts k es).length := by
  induction hc with
  | refl => rfl
  | step _ hs ih =>
    rw [starts_append, List.length_append, hs.countP_flights, ih]
    omega

namespace Sound

variable {b b' : Ledger κ ν τ} {h es : History κ ν τ} {k : κ}

/-- A key has a shared load if and only if it has a current one. -/
lemma flight?_eq_none_iff (H : Sound b h) :
    b.cache.flight? k = none ↔ ∀ l, ¬ Current l k h := by
  simp only [flight?_eq_none, H.mem_inFlight_iff, Current]

/-- By a sound history, a key is vacant if and only if the cache finds no value of it that is fresh,
and no load that is shared. -/
lemma vacant_iff (H : Sound b h) :
    Vacant b.cache.ttl b.now k h ↔
      (b.cache.lookup b.now k).1 = none ∧ b.cache.flight? k = none := by
  rw [H.tells.lookup_eq, H.flight?_eq_none_iff]
  exact ⟨fun hv => ⟨hv.1, hv.2⟩, fun hv => ⟨hv.1, hv.2⟩⟩

/-- A load that has not landed has not finished. -/
lemma unfinished_of_account (H : Sound b h) {l : Nat} (ha : b.flights[l]? = some ⟨k, false⟩) :
    Unfinished l k h := by
  rw [H.unfinished_iff_mem, H.mem_loads_iff]
  exact ha

/-! ### Order -/

/-- A step keeps the history orderly. -/
lemma orderly_step (H : Sound b h) (ho : Orderly h) (hs : Step b es b') : Orderly (es ++ h) := by
  cases hs with
  | @start k hl hf =>
    refine ⟨fun l j hm => ?_, fun l hc => ?_, ho⟩
    · -- all loads before have accounts
      obtain ⟨landed, hget⟩ := (H.started_iff l j).1 (by simpa using hm)
      rw [← H.length_flights]
      exact (List.getElem?_eq_some_iff.1 hget).1
    · exact H.flight?_eq_none_iff.1 hf l (hc.of_cons (by simp))
  | _ => exact ho

/-- A sound and orderly history stays orderly in every course, step by step: a load is started only
at a key that is vacant, and so it is the only current one. -/
theorem orderly_course [IsTrans τ (· ≤ ·)] (H : Sound b h) (ho : Orderly h)
    (hc : Course b es b') : Orderly (es ++ h) := by
  induction hc with
  | refl => exact ho
  | step hc hs ih =>
    rw [List.append_assoc]
    exact (H.course hc).orderly_step ih hs

/-! ### Vacancy -/

/-- A step keeps a key vacant unless something is put at it or somebody asks for it who could have
it loaded.

**Proof sketch.** The cases are those of the step. Time that passes shows nothing new; a load of the
key that ends is not current, as the key is vacant; all others are settled by `Vacant.cons`. -/
lemma vacant_step [IsTrans τ (· ≤ ·)] (H : Sound b h) (hv : Vacant b.cache.ttl b.now k h)
    (hs : Step b es b') (hput : ∀ v t, .put k v t ∉ es) (hask : .asked k true ∉ es) :
    Vacant b'.cache.ttl b'.now k (es ++ h) := by
  cases hs with
  | elapse hle =>
    refine ⟨?_, hv.not_current⟩
    have hn := hv.shown_eq_none
    rw [List.nil_append]
    rw [shown_eq_none_iff] at hn ⊢
    exact fun s hst => alive_eq_false_of_le hle (hn s hst)
  | lookup j => simpa using hv
  | keys => exact hv
  | put j v =>
    exact hv.cons (fun w t heq => hput w t (List.mem_singleton.2 heq.symm)) (by simp) (by simp)
  | drop j => exact hv.cons (by simp) (by simp) (by simp)
  | dropAll =>
    rw [invalidateAll_eq]
    exact hv.cons (by simp) (by simp) (by simp)
  | @ask j c ha => simpa using hv.cons (e := .asked j c) (by simp) (by simp) (by simp)
  | @start j hl hf =>
    have hj : j ≠ k := by
      rintro rfl
      simp at hask
    have hv' := (hv.cons (e := .asked j true) (by simp) (by simp) (by simp)).cons
      (e := .started b.cache.nextLoad j) (by simp) (by simp [hj]) (by simp)
    simpa [Cache.startLoad] using hv'
  | @land l j ha value =>
    rw [ttl_close]
    refine hv.cons (by simp) (by simp) ?_
    rintro m v t ⟨⟩
    by_contra hu
    exact hv.not_current l ⟨H.unfinished_of_account ha, by simpa using hu⟩

/-- **After a failure** a key is vacant.

**Proof sketch.** A current load leaves room for no value and no other current load, so that its
key is vacant once it has failed. From then on, every step keeps the key vacant. -/
lemma vacant_of_failed_step [IsTrans τ (· ≤ ·)] (H : Sound b h)
    (hi : Failed k h → Vacant b.cache.ttl b.now k h) (hs : Step b es b')
    (hfail : Failed k (es ++ h)) : Vacant b'.cache.ttl b'.now k (es ++ h) := by
  have hother (hes : ∀ l t, .ended l k none t ∉ es) :
      Vacant b'.cache.ttl b'.now k (es ++ h) := by
    obtain ⟨hput, hask, hf⟩ := hfail.of_append hes
    exact H.vacant_step (hi hf) hs hput hask
  cases hs with
  | @land l j ha value =>
    rcases hfail with ⟨m, t, heq, hu⟩ | ⟨hput, hask, hf⟩
    · cases heq
      obtain ⟨load, hm, rfl, rfl, hclose⟩ := H.valid.close_eq ha none
      have hg := (H.tells.current_iff load hm).2 hu
      rw [hclose, ttl_finish]
      refine ⟨H.tells.shown_eq_none hm hg, fun m hc => ?_⟩
      have hcur : Current load.id load.key h := ⟨H.unfinished_of_account ha, hu⟩
      have hid : m = load.id := H.tells.coherent.flight_eq
        ((H.mem_inFlight_iff _ _).2 (hc.of_cons (by simp))) ((H.mem_inFlight_iff _ _).2 hcur)
      exact hc.1.2 none b.now (by simp [hid])
    · refine H.vacant_step (hi hf) (Step.land ha value) (fun v t hm => ?_) fun hm => ?_
      · exact hput v t (List.mem_singleton.1 hm).symm
      · exact hask (List.mem_singleton.1 hm).symm
  | _ => exact hother (by simp)

/-- After a course in which the last current load of a key has failed, the key is vacant: nothing
was put since, and nobody has asked for it, who would have started the next load. -/
theorem vacant_of_failed [IsTrans τ (· ≤ ·)] (H : Sound b h)
    (hi : Failed k h → Vacant b.cache.ttl b.now k h) (hc : Course b es b')
    (hfail : Failed k (es ++ h)) : Vacant b'.cache.ttl b'.now k (es ++ h) := by
  induction hc with
  | refl => exact hi hfail
  | step hc hs ih =>
    rw [List.append_assoc] at hfail ⊢
    exact (H.course hc).vacant_of_failed_step ih hs hfail

/-! ### Asking together -/

/-- The first one who asks for a vacant key starts a load of it.

**Proof sketch.** As the key is vacant, the cache shows nothing for it and shares no load of it, so
that who may have it loaded starts a load. This load is current: its number is new, hence it has not
ended, and nothing has superseded it yet. -/
lemma start_of_vacant (H : Sound b h) (hv : Vacant b.cache.ttl b.now k h) (hs : Step b es b')
    (hask : .asked k true ∈ es) : ∃ l, starts k es = [l] ∧ Current l k (es ++ h) := by
  obtain ⟨hl, hf⟩ := H.vacant_iff.1 hv
  cases hs with
  | @ask j canLoad ha =>
    obtain ⟨rfl, rfl⟩ : k = j ∧ true = canLoad := by simpa using hask
    simpa using ha hl hf
  | @start j =>
    obtain rfl : k = j := by simpa using hask
    refine ⟨b.cache.nextLoad, by simp [starts, Event.start?], ⟨by simp, fun v t hm => ?_⟩, ?_⟩
    · -- no load of this number can have ended before
      have hget := (H.ended_iff b.cache.nextLoad k).1 ⟨v, t, by simpa using hm⟩
      rw [← H.length_flights] at hget
      simp at hget
    · simp [unsuperseded, Event.starts]
  | _ => simp at hask

/-- **Those who ask for a vacant key** start one load together, as long as nothing supersedes the
load and it does not end.

**Proof sketch.** The key is vacant until the first of them asks, who finds neither a value nor a
shared load and starts one. From then on the load is current, and the others share it. -/
theorem starts_course [IsTrans τ (· ≤ ·)] (H : Sound b h)
    (hv : Vacant b.cache.ttl b.now k h) (hc : Course b es b')
    (hsup : ∀ e ∈ es, e.supersedes k = false)
    (hend : ∀ l, .started l k ∈ es → ∀ v t, .ended l k v t ∉ es) :
    (.asked k true ∉ es ∧ starts k es = [] ∧ Vacant b'.cache.ttl b'.now k (es ++ h)) ∨
      ∃ l, starts k es = [l] ∧ Current l k (es ++ h) := by
  induction hc with
  | refl => exact Or.inl ⟨by simp, rfl, hv⟩
  | @step es new b' b'' hc hs ih =>
    have H' := H.course hc
    simp only [List.mem_append] at hsup hend
    rw [List.append_assoc, starts_append, List.mem_append, not_or]
    rcases ih (fun e he => hsup e (Or.inr he))
      (fun l hl v t he => hend l (Or.inr hl) v t (Or.inr he)) with ⟨hask, hes, hv'⟩ | ⟨l, hes, hl⟩
    · by_cases hnew : .asked k true ∈ new
      · exact Or.inr (by rw [hes, List.append_nil]; exact H'.start_of_vacant hv' hs hnew)
      · refine Or.inl ⟨⟨hnew, hask⟩, ?_, H'.vacant_step hv' hs (fun v t hm => ?_) hnew⟩
        · rw [hes, List.append_nil]
          refine starts_eq_nil fun m hm => ?_
          cases hs with
          | start => simp_all
          | _ => simp at hm
        · simpa [Event.supersedes] using hsup _ (Or.inl hm)
    · refine Or.inr ⟨l, ?_, hl.append (fun e he => hsup e (Or.inl he)) fun v t he => ?_⟩
      · rw [hes, starts_eq_nil fun m hm => ?_, List.nil_append]
        cases hs with
        | @start j _ hf =>
          obtain ⟨-, rfl⟩ : m = b'.cache.nextLoad ∧ k = j := by simpa using hm
          exact H'.flight?_eq_none_iff.1 hf l hl
        | _ => simp at hm
      · exact hend l (Or.inr (mem_starts.1 (by simp [hes]))) v t (Or.inl he)

end Sound

end NodeKeeper.Cache
