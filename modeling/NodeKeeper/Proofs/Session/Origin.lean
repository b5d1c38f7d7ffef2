import Mathlib.Data.List.Induction
import NodeKeeper.Proofs.Session.Asking
import NodeKeeper.Proofs.Session.Joining

/-!
# Where values come from

A load that has landed landed in a turn of its own, with an answer that was obtained from outside,
and it was in a turn of its own that it asked. What a cache has of a key since a certain load was
put, or is what such a load came to.

## Main definitions

* `Session.Yields` — a value is what one of the later loads of a key came to.
* `Session.Fed` — all that the cache has of a key was put, or came with its later loads.

## Main results

* `Session.exists_asking`, `Session.exists_landing` — the turns in which a load asked, and landed.
* `Session.landed_of_ended` — a load that has ended, by the history, has landed.
* `Session.Fed.kept`, `Session.Fed.shared` — what a cache has of a key that is fed so.
* `Session.exists_fed` — the load from which on the cache has been fed since a key was last dropped.
-/

namespace NodeKeeper.Session

open Cache (Since)

variable {σ κ ν τ α φ δ : Type} [DecidableEq κ] [Keylike κ] [Add τ] [LE τ] [DecidableLE τ]

/-! ## Turns of a load -/

section Turns

variable {C : Client σ κ ν τ α φ δ} {s : Session σ κ ν τ α φ δ} {l : Nat} {f : Flight κ ν τ α δ}

/-- A load that lands is found landed at its place, with what its conclusion came to. -/
lemma flights_land (hf : s.flights[l]? = some f) (a : Answer κ ν τ α) :
    (s.land C l f a).flights[l]? =
      some { f with progress := .landed (C.conclude f.job a.outcome (play a s.stage)).1 } :=
  flights_setProgress_self hf _

/-- A load that has obtained its answer lands with it.

**Proof sketch.** The answer comes when the load calls in this turn, or was waiting for it. In both
cases the load lands with it. -/
lemma turnLoad_of_obtains (hf : s.flights[l]? = some f) {a : Answer κ ν τ α}
    (ha : Obtains C s f a) :
    ∃ st, (s.turnLoad C l).flights[l]? =
      some { f with progress := .landed (C.conclude f.job a.outcome st).1 } := by
  unfold turnLoad
  rw [hf]
  rcases ha with ⟨hp, hnow⟩ | hp
  · rcases hask : s.ask C f.job with ⟨response, s'⟩
    obtain rfl : .now a = response := hnow.symm.trans (congrArg Prod.fst hask)
    have hf' : s'.flights[l]? = some f := by
      rw [← show (s.ask C f.job).2 = s' from congrArg Prod.snd hask]
      exact hf
    simp only [hp, hask]
    exact ⟨_, flights_land hf' a⟩
  · simp only [hp]
    exact ⟨_, flights_land hf a⟩

/-- A load lands with an answer, and comes to what its job makes of it.

**Proof sketch.** By `loadTurn` the turn did nothing, put the load to wait, or landed it. Only the
last one is possible, and it says what the load came to. -/
lemma landed_turnLoad (hf : s.flights[l]? = some f) (hn : f.progress.hasLanded = false)
    {f' : Flight κ ν τ α δ} (hf' : (s.turnLoad C l).flights[l]? = some f') {r : Outcome ν}
    (hr : f'.progress = .landed r) :
    ∃ a st, Obtains C s f a ∧ r = (C.conclude f.job a.outcome st).1 := by
  have hturn := loadTurn (C := C) (s := s) l
  generalize s.turnLoad C l = s' at hturn hf'
  cases hturn with
  | idle =>
    obtain rfl := Option.some.inj (hf.symm.trans hf')
    exact absurd hn (by simp [hr, Progress.hasLanded])
  | @asked g gate hg _ _ =>
    rw [flights_setProgress_self (s := (s.ask C g.job).2.await gate (.load l)) hg] at hf'
    obtain rfl := Option.some.inj hf'
    exact absurd hr (by simp)
  | @answered g a hg hp ha =>
    obtain rfl := Option.some.inj (hf.symm.trans hg)
    rw [flights_land (s := (s.ask C f.job).2) hf] at hf'
    obtain rfl := Option.some.inj hf'
    exact ⟨a, _, Or.inl ⟨hp, ha⟩, (Progress.landed.inj hr).symm⟩
  | @freed g a hg hp =>
    obtain rfl := Option.some.inj (hf.symm.trans hg)
    rw [flights_land hf] at hf'
    obtain rfl := Option.some.inj hf'
    exact ⟨a, _, Or.inr hp, (Progress.landed.inj hr).symm⟩

variable {ms : List (Move σ κ ν τ α φ)}

/-- The turn in which a load got somewhere. It cannot have got there by being started, or by its
gate opening.

**Proof sketch.** By `exists_turning` there is a move that brought the load to where it is. To start
a load, to join it, and to release a gate do not, by assumption; so it was a turn of the load. -/
lemma exists_turn_of_progress {P : Progress κ ν τ α → Prop} (hfresh : ¬ P .fresh)
    (hfreed : ∀ a, P (.freed a) → P .held)
    (hs : ∀ g, s.flights[l]? = some g → ¬ P g.progress)
    (hf : (s.after C ms).flights[l]? = some f) (hp : P f.progress) :
    ∃ ms₁ ms₂ g g', ms = ms₁ ++ .turn (.load l) :: ms₂ ∧
      (s.after C ms₁).flights[l]? = some g ∧ ¬ P g.progress ∧ g.job = f.job ∧
        ((s.after C ms₁).turnLoad C l).flights[l]? = some g' ∧ P g'.progress ∧ g'.Continues f := by
  obtain ⟨ms₁, m, ms₂, rfl, hbefore, g', hg', hafter⟩ := exists_turning
    (P := fun s : Session σ κ ν τ α φ δ => ∃ g, s.flights[l]? = some g ∧ P g.progress)
    (s := s) (fun ⟨g, hg, hreached⟩ => hs g hg hreached) ⟨f, hf, hp⟩
  obtain ⟨f', hf', hcont⟩ := continued_after (C := C) (s := (s.after C ms₁).move C m) ms₂ l g' hg'
  rw [after_append, after_cons] at hf
  obtain rfl := Option.some.inj (hf.symm.trans hf')
  have hstep := flightStep_move (C := C) (s := s.after C ms₁) l m
  rw [hg'] at hstep
  generalize hx : (s.after C ms₁).flights[l]? = x at hstep hbefore
  have hnot {g : Flight κ ν τ α δ} (hg : x = some g) : ¬ P g.progress :=
    fun hreached => hbefore ⟨g, hg, hreached⟩
  cases hstep with
  | same => exact absurd hafter (hnot rfl)
  | started c job hws => exact absurd hafter hfresh
  | joined c g => exact absurd hafter (hnot (g := g) rfl)
  | @freed gate a g hheld => exact absurd (hheld ▸ hfreed a hafter) (hnot (g := g) rfl)
  | @held g _ => exact ⟨ms₁, ms₂, g, _, rfl, hx, hnot rfl, hcont.job.symm, hg', hafter, hcont⟩
  | @landed g _ _ => exact ⟨ms₁, ms₂, g, _, rfl, hx, hnot rfl, hcont.job.symm, hg', hafter, hcont⟩

/-- **The turn in which a load asked.** A load that got anywhere asked in its first turn. -/
theorem exists_asking (hs : ∀ g, s.flights[l]? = some g → g.progress = .fresh)
    (hf : (s.after C ms).flights[l]? = some f) (hp : f.progress ≠ .fresh) :
    ∃ ms₁ ms₂, ms = ms₁ ++ .turn (.load l) :: ms₂ ∧
      Asks C (s.after C ms₁) (.load l) f.job (s.after C ms₁).stage := by
  obtain ⟨ms₁, ms₂, g, g', rfl, hg, hfresh, hjob, -⟩ :=
    exists_turn_of_progress (P := (· ≠ .fresh)) (by simp) (by simp)
      (fun g hg => not_not.2 (hs g hg)) hf hp
  exact ⟨ms₁, ms₂, rfl, hjob ▸ .load hg (not_not.1 hfresh)⟩

/-- **The turn in which a load landed**, and the answer that it landed with.

**Proof sketch.** The turn is found by `exists_turn_of_progress`. From then on the load stays as it
landed, so that the outcome is the one of that turn. -/
theorem exists_landing (hs : ∀ g, s.flights[l]? = some g → g.progress.hasLanded = false)
    (hf : (s.after C ms).flights[l]? = some f) {r : Outcome ν} (hr : f.progress = .landed r) :
    ∃ ms₁ ms₂ g a st, ms = ms₁ ++ .turn (.load l) :: ms₂ ∧
      (s.after C ms₁).flights[l]? = some g ∧ g.job = f.job ∧ Obtains C (s.after C ms₁) g a ∧
        r = (C.conclude f.job a.outcome st).1 := by
  obtain ⟨ms₁, ms₂, g, g', rfl, hg, hn, hjob, hg', hlanded, hcont⟩ :=
    exists_turn_of_progress (P := (·.hasLanded = true)) (by simp [Progress.hasLanded])
      (by simp [Progress.hasLanded]) (fun g hg => by simp [hs g hg]) hf (by rw [hr]; rfl)
  obtain ⟨o, ho⟩ : ∃ o, g'.progress = .landed o := by
    cases hp : g'.progress with
    | landed o => exact ⟨o, rfl⟩
    | fresh | held | freed _ => exact absurd hlanded (by simp [hp, Progress.hasLanded])
  obtain rfl : r = o := Progress.landed.inj (hr.symm.trans (hcont.landed o ho))
  obtain ⟨a, st, ha, hconclude⟩ := landed_turnLoad hg (by simpa using hn) hg' ho
  exact ⟨ms₁, ms₂, g, a, st, rfl, hg, hjob, ha, hjob ▸ hconclude⟩

/-- A load that is there after one part of a run, and not after another one, is started later than
that.

**Proof sketch.** Otherwise the second part of the run is within the first one, and there are no
fewer loads after the first one. -/
lemma prefix_of_flight {ms₁ ms₂ : List (Move σ κ ν τ α φ)} {m : Move σ κ ν τ α φ}
    (h₁ : ms₁ ++ [m] <+: ms) (h₂ : ms₂ <+: ms) (hl : (s.after C ms₁).flights.length ≤ l)
    (hf : (s.after C ms₂).flights[l]? = some f) : ms₁ ++ [m] <+: ms₂ := by
  rcases List.prefix_or_prefix_of_prefix h₁ h₂ with hle | hle
  · exact hle
  · rcases List.prefix_concat_iff.1 hle with rfl | ⟨ms₃, rfl⟩
    · exact List.prefix_rfl
    · -- the loads only become more
      rw [after_append] at hl
      have hmore := (continued_after (C := C) (s := s.after C ms₂) ms₃).length_le
      have hlt := (List.getElem?_eq_some_iff.1 hf).1
      omega

end Turns

/-! ## Loads that have ended -/

section Ended

variable {C : Client σ κ ν τ α φ δ} (K : Conduct C) {s : Session σ κ ν τ α φ δ} {l : Nat} {k : κ}
  {v : Option ν} {t : τ}

/-- A load whose end is in the history of a turn lands in that turn, which is its own.

**Proof sketch.** The history of the turn is that of a landing, with an answer that comes at once or
that was waiting. The end in it is that of this load, as an answer that is played ends none. -/
lemma landed_of_ended_turnLoad {m : Nat} (he : .ended l k v t ∈ loadHistory K s m) :
    l = m ∧ ∃ f r, (s.turnLoad C m).flights[l]? = some f ∧ K.key f.job = k ∧
      f.progress = .landed r ∧ r.toOption = v := by
  have hland {s : Session σ κ ν τ α φ δ} {f : Flight κ ν τ α δ} (hf : s.flights[m]? = some f)
      {a : Answer κ ν τ α} (he : .ended l k v t ∈ landHistory K s m f.job a) :
      l = m ∧ ∃ f' r, (s.land C m f a).flights[l]? = some f' ∧ K.key f'.job = k ∧
        f'.progress = .landed r ∧ r.toOption = v := by
    rcases List.mem_cons.1 he with hend | hplayed
    · obtain ⟨rfl, rfl, rfl, -⟩ := Cache.Event.ended.inj hend
      exact ⟨rfl, _, _, flights_land hf a, rfl, rfl, rfl⟩
    · -- an answer ends no load
      exact absurd ((drift_play a s.stage []).landed_of_ended hplayed) (by simp [Stage.ledger])
  unfold loadHistory at he
  unfold turnLoad
  cases hf : s.flights[m]? with
  | none => exact absurd he (by simp [hf])
  | some f =>
    simp only [hf] at he ⊢
    cases hp : f.progress with
    | fresh =>
      simp only [hp] at he ⊢
      rcases ha : s.ask C f.job with ⟨a | gate, s'⟩
      · simp only [ha] at he
        obtain rfl : (s.ask C f.job).2 = s' := by rw [ha]
        exact hland (s := (s.ask C f.job).2) hf he
      · exact absurd he (by simp [ha])
    | freed a =>
      simp only [hp] at he ⊢
      exact hland hf he
    | held | landed _ => exact absurd he (by simp [hp])

/-- A load that ends in a move lands in it.

**Proof sketch.** By its accounts the load lands in this move, and a load lands in its own turns
only. -/
lemma landed_of_ended_move {m : Move σ κ ν τ α φ} (he : .ended l k v t ∈ events K s m) :
    ∃ f r, (s.move C m).flights[l]? = some f ∧ K.key f.job = k ∧ f.progress = .landed r ∧
      r.toOption = v := by
  have hdrift := drift_move K s m
  have haccount := hdrift.landed_of_ended he
  rw [ledger, Stage.ledger, List.getElem?_map, Option.map_eq_some_iff] at haccount
  obtain ⟨f, hf, hfa⟩ := haccount
  have hlanded : f.progress.hasLanded = true := congrArg Cache.Account.landed hfa
  have hstep := flightStep_move (C := C) (s := s) l m
  rw [hf] at hstep
  generalize hx : s.flights[l]? = x at hstep
  have hnot {g : Flight κ ν τ α δ} (hg : x = some g) : g.progress.hasLanded ≠ true := by
    intro hp
    refine hdrift.not_mem_of_landed (l := l) (j := K.key g.job) ?_ v t he
    rw [ledger, Stage.ledger, List.getElem?_map, hx, hg, Option.map_some, Flight.account, hp]
  cases hstep with
  | same => exact absurd hlanded (hnot rfl)
  | joined c g => exact absurd hlanded (hnot (g := g) rfl)
  | started _ _ _ | freed _ _ _ | held _ => exact absurd hlanded (by simp [Progress.hasLanded])
  | landed _ _ => exact (landed_of_ended_turnLoad K he).2

/-- **A load that has ended**, by the history, has landed. -/
theorem landed_of_ended {ms : List (Move σ κ ν τ α φ)} (he : .ended l k v t ∈ history K s ms) :
    ∃ f r, (s.after C ms).flights[l]? = some f ∧ K.key f.job = k ∧ f.progress = .landed r ∧
      r.toOption = v := by
  induction ms generalizing s with
  | nil => exact absurd he (by simp [history])
  | cons m ms ih =>
    rcases List.mem_append.1 he with hlater | hmove
    · exact ih hlater
    · obtain ⟨f, r, hf, hkey, hr, hv⟩ := landed_of_ended_move K hmove
      obtain ⟨f', hf', hcont⟩ := continued_after (C := C) (s := s.move C m) ms l f hf
      exact ⟨f', r, hf', hcont.job ▸ hkey, hcont.landed r hr, hv⟩

end Ended

/-! ## What the cache is fed with -/

/-- The value is what a load of the key came to, one of those from a certain one on. -/
def Yields (key : δ → κ) (k : κ) (n : Nat) (fs : List (Flight κ ν τ α δ)) (v : ν) : Prop :=
  ∃ l f, n ≤ l ∧ fs[l]? = some f ∧ key f.job = k ∧ f.progress = .landed (.ok v)

omit [DecidableEq κ] [Keylike κ] [Add τ] [LE τ] [DecidableLE τ] in
/-- What the loads of a key came to is still there when they have gone on: landed loads do not
change, and stay at their places. -/
lemma Continued.yields {fs fs' : List (Flight κ ν τ α δ)} (h : Continued fs fs') {key : δ → κ}
    {k : κ} {n : Nat} {v : ν} (hv : Yields key k n fs v) : Yields key k n fs' v := by
  obtain ⟨l, f, hle, hf, hkey, hp⟩ := hv
  obtain ⟨f', hf', hc⟩ := h l f hf
  exact ⟨l, f', hle, hf', hc.job ▸ hkey, hc.landed _ hp⟩

/-- After a run, all that the cache has of a key was put in it, or came with the loads from a
certain one on. -/
structure Fed {C : Client σ κ ν τ α φ δ} (K : Conduct C) (s : Session σ κ ν τ α φ δ)
    (ms : List (Move σ κ ν τ α φ)) (k : κ) (n : Nat) : Prop where
  since : Since k n ((s.after C ms).ledger K.key) (history K s ms)
  le : n ≤ (s.after C ms).flights.length

section Fed

variable {C : Client σ κ ν τ α φ δ} {K : Conduct C} {s : Session σ κ ν τ α φ δ} {k : κ} {n : Nat}
  {ms : List (Move σ κ ν τ α φ)}

/-- A key of which the cache has nothing, and no load of which is on the way. -/
lemma Fed.of_vacant (hk : s.stage.cache.kept? k = none) (hf : s.stage.cache.flight? k = none)
    (hn : n ≤ s.flights.length) : Fed K s [] k n :=
  ⟨.of_vacant hk hf, hn⟩

/-- The run goes on. -/
lemma Fed.append (H : Fed K s ms k n) (hv : (s.ledger K.key).Valid)
    (ms' : List (Move σ κ ν τ α φ)) : Fed K s (ms ++ ms') k n where
  since := by
    have hle : n ≤ ((s.after C ms).ledger K.key).flights.length := by
      rw [ledger, Stage.ledger, List.length_map]
      exact H.le
    have hsince := H.since.drift (valid_after K hv ms) hle (drift_after K (s.after C ms) ms')
    rwa [← after_append, ← history_append] at hsince
  le := by
    rw [after_append]
    exact Nat.le_trans H.le (continued_after ms').length_le

/-- What the cache has of the key was put, or is what a load came to. -/
lemma Fed.kept (H : Fed K s ms k n) {e : Cache.Entry κ ν τ}
    (he : (s.after C ms).stage.cache.kept? k = some e) :
    (∃ t, .put k e.value t ∈ history K s ms) ∨
      Yields K.key k n (s.after C ms).flights e.value := by
  refine (H.since.kept e he).imp_right fun ⟨l, t, hle, hended⟩ => ?_
  obtain ⟨f, r, hf, hkey, hr, hv⟩ := landed_of_ended K hended
  refine ⟨l, f, hle, hf, hkey, ?_⟩
  cases r with
  | ok v => rw [hr, show v = e.value from Option.some.inj hv]
  | error e => exact absurd hv (by simp [Except.toOption])

/-- A load that the cache shares is a load of the key, one of those from a certain one on. -/
lemma Fed.shared (H : Fed K s ms k n) (hv : (s.ledger K.key).Valid) {l : Nat}
    (hl : (k, l) ∈ (s.after C ms).stage.cache.inFlight) :
    n ≤ l ∧ ∃ f, (s.after C ms).flights[l]? = some f ∧ K.key f.job = k := by
  obtain ⟨f, hf, hkey, -⟩ := exists_shared (valid_after K hv ms) hl
  exact ⟨H.since.shared l hl, f, hf, hkey⟩

omit [DecidableEq κ] [Keylike κ] [Add τ] [LE τ] [DecidableLE τ] in
/-- A list to which one element was added splits at a certain element, either at the added one or
before it. -/
lemma append_single_cases {β : Type} {xs xs₁ xs₂ : List β} {x y : β}
    (h : xs ++ [x] = xs₁ ++ y :: xs₂) : xs₁ = xs ∧ y = x ∨ ∃ xs₃, xs = xs₁ ++ y :: xs₃ := by
  rcases List.eq_nil_or_concat xs₂ with rfl | ⟨xs₃, z, rfl⟩
  · obtain ⟨rfl, hlast⟩ := List.append_inj' h rfl
    exact Or.inl ⟨rfl, (List.cons.inj hlast).1.symm⟩
  · rw [List.concat_eq_append, ← List.cons_append, ← List.append_assoc] at h
    exact Or.inr ⟨xs₃, (List.append_inj' h rfl).1⟩

variable (K) in
/-- A load that fails installs nothing, unless something is put while its answer comes in. -/
lemma entries_sublist_of_failed {s : Session σ κ ν τ α φ δ} (hv : (s.ledger K.key).Valid) {l : Nat}
    (hput : ∀ k v t, .put k v t ∉ loadHistory K s l) {f : Flight κ ν τ α δ} {e : Fault}
    (hf : (s.turnLoad C l).flights[l]? = some f) (hp : f.progress = .landed (.error e)) :
    (s.turnLoad C l).stage.cache.entries.Sublist s.stage.cache.entries := by
  refine (drift_turnLoad K s l).entries_sublist hv hput fun m k v t hmem => ?_
  obtain ⟨rfl, g, r, hg, -, hr, hv⟩ := landed_of_ended_turnLoad K hmem
  obtain rfl := Option.some.inj (hf.symm.trans hg)
  obtain rfl := Progress.landed.inj (hp.symm.trans hr)
  exact absurd hv (by simp [Except.toOption])

variable (K) in
/-- **Since a key was last put or dropped**, the cache has been fed with what was put, and with
loads that were not there before.

**Proof sketch.** By induction on the run. A move that drops the key leaves nothing that was there
before; every other move leaves the cache fed as before. -/
theorem exists_fed (hv : (s.ledger K.key).Valid) (hk : s.stage.cache.kept? k = none)
    (hf : s.stage.cache.flight? k = none) (ms : List (Move σ κ ν τ α φ)) :
    ∃ n, Fed K s ms k n ∧ ∀ ms₁ m ms₂, ms = ms₁ ++ m :: ms₂ →
      (∃ e ∈ events K (s.after C ms₁) m, e.supersedes k = true) →
        (s.after C ms₁).flights.length ≤ n := by
  induction ms using List.reverseRecOn with
  | nil => exact ⟨0, .of_vacant hk hf (Nat.zero_le _), by simp⟩
  | append_singleton ms m ih =>
    have hmore {ms₁ ms₂ : List (Move σ κ ν τ α φ)} (h : ms = ms₁ ++ ms₂) :
        (s.after C ms₁).flights.length ≤ (s.after C ms).flights.length := by
      rw [h, after_append]
      exact (continued_after ms₂).length_le
    by_cases hm : ∃ e ∈ events K (s.after C ms) m, e.supersedes k = true
    · refine ⟨(s.after C ms).flights.length, ⟨?_, ?_⟩, fun ms₁ m' ms₂ hsplit _ => ?_⟩
      · have hsince := Cache.since_of_supersedes (valid_after K hv ms)
          (drift_move K (s.after C ms) m) hm
        rw [ledger, Stage.ledger, List.length_map] at hsince
        rw [after_append, history_append]
        exact hsince.mono (List.subset_append_left _ _)
      · rw [after_append]
        exact (continued_after [m]).length_le
      · rcases append_single_cases hsplit with ⟨rfl, -⟩ | ⟨ms₃, h⟩
        · exact Nat.le_refl _
        · exact hmore h
    · obtain ⟨n, hfed, hbefore⟩ := ih
      refine ⟨n, hfed.append hv [m], fun ms₁ m' ms₂ hsplit hsup => ?_⟩
      rcases append_single_cases hsplit with ⟨rfl, rfl⟩ | ⟨ms₃, rfl⟩
      · exact absurd hsup hm
      · exact hbefore ms₁ m' ms₃ rfl hsup

end Fed

end NodeKeeper.Session
