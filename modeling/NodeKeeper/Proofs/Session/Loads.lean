import NodeKeeper.Proofs.Session.Conduct

/-!
# What becomes of a load in one move

A load is started and joined by callers in their turns. It takes at most two turns itself: one to
ask outside, and one to land. Once it has landed nothing happens to it any more, except that callers
that come late are still noted down.

## Main definitions

* `Session.FlightStep` — what can become of a load in one move.
* `Session.LoadTurn` — how the turn of a load can go.

## Main results

* `Session.flightStep_move` — nothing else can become of a load.
* `Session.loadTurn` — a turn of a load cannot go in another way.
-/

namespace NodeKeeper.Session

variable {σ κ ν τ α φ δ : Type}

/-- What can become of the load of a number in one move. -/
inductive FlightStep (l : Nat) :
    Move σ κ ν τ α φ → Option (Flight κ ν τ α δ) → Option (Flight κ ν τ α δ) → Prop
  /-- It is as it was. -/
  | same (m : Move σ κ ν τ α φ) (x : Option (Flight κ ν τ α δ)) : FlightStep l m x x
  /-- A caller starts it, and joins it unless it waits for another one. -/
  | started (c : Nat) (job : δ) {ws : List Nat} (hws : ws = [] ∨ ws = [c]) :
      FlightStep l (.turn (.caller c)) none (some ⟨job, .fresh, ws⟩)
  /-- A caller joins it. -/
  | joined (c : Nat) (f : Flight κ ν τ α δ) :
      FlightStep l (.turn (.caller c)) (some f) (some { f with waiters := f.waiters ++ [c] })
  /-- The gate that it waits at has opened. -/
  | freed (gate : String) (a : Answer κ ν τ α) {f : Flight κ ν τ α δ} (hf : f.progress = .held) :
      FlightStep l (.release gate a) (some f) (some { f with progress := .freed a })
  /-- It asks outside, and has to wait at a gate. -/
  | held {f : Flight κ ν τ α δ} (hf : f.progress = .fresh) :
      FlightStep l (.turn (.load l)) (some f) (some { f with progress := .held })
  /-- It lands. -/
  | landed {f : Flight κ ν τ α δ} (hf : f.progress.hasLanded = false) (r : Outcome ν) :
      FlightStep l (.turn (.load l)) (some f) (some { f with progress := .landed r })

/-! ## Parts of moves -/

section Parts

variable {s : Session σ κ ν τ α φ δ}

/-- To move one load on does not touch another one. -/
lemma flights_setProgress_ne {l m : Nat} (hm : m ≠ l) (p : Progress κ ν τ α) :
    (s.setProgress m p).flights[l]? = s.flights[l]? := by
  simp [setProgress, hm]

/-- A load that was moved on is found at its place, with the same job and the same waiters. -/
lemma flights_setProgress_self {l : Nat} {f : Flight κ ν τ α δ} (hf : s.flights[l]? = some f)
    (p : Progress κ ν τ α) :
    (s.setProgress l p).flights[l]? = some { f with progress := p } := by
  simp [setProgress, hf]

/-- To join a load changes none, but for the waiters of the one that is joined. -/
lemma flights_join (l m c : Nat) (phase : φ) :
    (s.join m c phase).flights[l]? = s.flights[l]? ∨ ∃ f, s.flights[l]? = some f ∧
      (s.join m c phase).flights[l]? = some { f with waiters := f.waiters ++ [c] } := by
  by_cases hm : m = l
  · subst hm
    cases hf : s.flights[m]? with
    | none => exact Or.inl (by simp [join, hf])
    | some f => exact Or.inr ⟨f, rfl, by simp [join, hf]⟩
  · exact Or.inl (by simp [join, hm])

/-- To start a load changes none of those that are there; the new one is fresh, and nobody waits for
it.

**Proof sketch.** The place of a load is before the new one, is that of the new one, or is behind
it. -/
lemma flights_startFlight (l m : Nat) (job : δ) :
    (s.startFlight m job).flights[l]? = s.flights[l]? ∨ s.flights[l]? = none ∧
      (s.startFlight m job).flights[l]? = some ⟨job, .fresh, []⟩ := by
  have hflights : (s.startFlight m job).flights = s.flights ++ [⟨job, .fresh, []⟩] := rfl
  rw [hflights]
  rcases Nat.lt_trichotomy l s.flights.length with hlt | rfl | hgt
  · exact Or.inl (List.getElem?_append_left hlt)
  · exact Or.inr ⟨List.getElem?_eq_none (Nat.le_refl _), List.getElem?_concat_length⟩
  · refine Or.inl ?_
    rw [List.getElem?_eq_none (Nat.le_of_lt hgt), List.getElem?_eq_none]
    rw [List.length_append, List.length_singleton]
    exact hgt

/-- Who starts a load is the first to join it. -/
lemma flights_startFlight_join (c : Nat) (job : δ) (phase : φ) :
    ((s.startFlight s.flights.length job).join s.flights.length c phase).flights =
      s.flights ++ [⟨job, .fresh, [c]⟩] := by
  have hlast (g : Flight κ ν τ α δ → Flight κ ν τ α δ) (fs : List (Flight κ ν τ α δ))
      (f : Flight κ ν τ α δ) : (fs ++ [f]).modify fs.length g = fs ++ [g f] := by
    induction fs with
    | nil => rfl
    | cons x fs ih => simp [ih]
  exact hlast _ s.flights _

/-- An answer leaves a load as it was, or frees it from waiting for this answer.

**Proof sketch.** Only the load to which the task belongs is touched, and only if it is held; it is
freed then. -/
lemma flights_free (a : Answer κ ν τ α) (t : Task) (l : Nat) :
    (free a s t).flights[l]? = s.flights[l]? ∨ ∃ f, s.flights[l]? = some f ∧
      f.progress = .held ∧ (free a s t).flights[l]? = some { f with progress := .freed a } := by
  cases t with
  | caller c =>
    simp only [free]
    split <;> exact Or.inl rfl
  | load m =>
    simp only [free]
    split
    · next hp =>
      obtain ⟨f, hf, hp⟩ := Option.map_eq_some_iff.1 hp
      by_cases hm : m = l
      · subst hm
        exact Or.inr ⟨f, hf, hp, flights_setProgress_self hf _⟩
      · exact Or.inl (flights_setProgress_ne hm _)
    · exact Or.inl rfl
  | deliver m c => exact Or.inl rfl

/-- To release a gate leaves a load as it was, or frees it from waiting for this answer.

**Proof sketch.** By `release_of_free` it suffices to free one task after the other, and a load that
was freed is not held any more. -/
lemma flights_release (gate : String) (a : Answer κ ν τ α) (l : Nat) :
    (s.release gate a).2.flights[l]? = s.flights[l]? ∨ ∃ f, s.flights[l]? = some f ∧
      f.progress = .held ∧
        (s.release gate a).2.flights[l]? = some { f with progress := .freed a } := by
  refine release_of_free (P := fun s' => s'.flights[l]? = s.flights[l]? ∨ ∃ f,
    s.flights[l]? = some f ∧ f.progress = .held ∧
      s'.flights[l]? = some { f with progress := .freed a })
    (Or.inl rfl) (fun _ _ h => h) (fun s' t h => ?_) gate
  rcases h with hsame | ⟨f, hf, hheld, hfreed⟩
  · rw [← hsame]
    exact flights_free a t l
  · rcases flights_free (s := s') a t l with hsame | ⟨f', hf', hheld', -⟩
    · exact Or.inr ⟨f, hf, hheld, hsame.trans hfreed⟩
    · -- what has been freed is not held any more
      obtain rfl := Option.some.inj (hf'.symm.trans hfreed)
      exact absurd hheld' (by simp)

/-- To cancel a caller touches no load: others may still wait for it. -/
lemma flights_cancel (c : Nat) : (s.cancel c).2.flights = s.flights := by
  unfold cancel
  split <;> rfl

/-- A delivery touches no load. -/
lemma flights_deliver (l c : Nat) : (s.deliver l c).flights = s.flights := by
  unfold deliver
  split
  · split <;> rfl
  · rfl

variable [DecidableEq κ] [Keylike κ] [Add τ] [LE τ] [DecidableLE τ]
variable {C : Client σ κ ν τ α φ δ}

/-- A caller that goes on takes each load at most one step: it may join one, or start one.

**Proof sketch.** To finish, and to see to a job of one's own, touches no load. To join a load adds
a waiter to it. A load that is started appears at a place where there was none, with this one
waiter. -/
lemma flightStep_follow (l c : Nat) (next : Turn ν φ δ) :
    FlightStep l (.turn (.caller c) : Move σ κ ν τ α φ) s.flights[l]?
      (s.follow C c next).flights[l]? := by
  cases next with
  | done r => exact .same _ _
  | wait m job phase =>
    cases job with
    | none =>
      rcases flights_join (s := s) l m c phase with hsame | ⟨f, hf, hjoin⟩
      · rw [follow, hsame]
        exact .same _ _
      · rw [follow, hjoin, hf]
        exact .joined c f
    | some job =>
      rw [follow]
      rcases flights_startFlight (s := s) l m job with hold | ⟨hnone, hnew⟩
      · rcases flights_join (s := s.startFlight m job) l m c phase with hsame | ⟨f, hf, hjoin⟩
        · rw [hsame, hold]
          exact .same _ _
        · rw [hjoin, ← hold, hf]
          exact .joined c f
      · rcases flights_join (s := s.startFlight m job) l m c phase with hsame | ⟨f, hf, hjoin⟩
        · rw [hsame, hnew, hnone]
          exact .started c job (.inl rfl)
        · obtain rfl := Option.some.inj (hnew.symm.trans hf)
          rw [hjoin, hnone]
          exact .started c job (.inr rfl)
  | errand job phase =>
    rcases s.follow_errand (C := C) c job phase with ⟨_, _, h⟩ | ⟨_, _, h⟩ <;> rw [h]
    · exact .same _ _
    · exact .same _ _

/-- The turn of a caller takes each load at most one step.

**Proof sketch.** Only what a caller decides at the end of its turn can concern a load, and this is
`flightStep_follow`. -/
lemma flightStep_turnCaller (l c : Nat) :
    FlightStep l (.turn (.caller c) : Move σ κ ν τ α φ) s.flights[l]?
      (s.turnCaller C c).flights[l]? := by
  have hstage (stage : Stage σ κ ν τ) (next : Turn ν φ δ) :
      FlightStep l (.turn (.caller c) : Move σ κ ν τ α φ) s.flights[l]?
        (({ s with stage } : Session _ _ _ _ _ _ _).follow C c next).flights[l]? :=
    flightStep_follow (s := { s with stage }) l c next
  unfold turnCaller
  split
  · exact hstage _ _
  · exact hstage _ _
  · exact .same _ _
  · exact .same _ _
  · exact .same _ _

variable (C) in
/-- How the turn of a load can go: the session after it. -/
inductive LoadTurn (s : Session σ κ ν τ α φ δ) (l : Nat) : Session σ κ ν τ α φ δ → Prop
  /-- The load is not there, waits, or has landed before. -/
  | idle (h : ∀ f, s.flights[l]? = some f → f.progress = .held ∨ ∃ r, f.progress = .landed r) :
      LoadTurn s l s
  /-- It asks outside, and has to wait. -/
  | asked {f : Flight κ ν τ α δ} {gate : String} (hf : s.flights[l]? = some f)
      (hp : f.progress = .fresh) (ha : (s.ask C f.job).1 = .gate gate) :
      LoadTurn s l (((s.ask C f.job).2.await gate (.load l)).setProgress l .held)
  /-- It asks outside, and lands with the answer. -/
  | answered {f : Flight κ ν τ α δ} {a : Answer κ ν τ α} (hf : s.flights[l]? = some f)
      (hp : f.progress = .fresh) (ha : (s.ask C f.job).1 = .now a) :
      LoadTurn s l ((s.ask C f.job).2.land C l f a)
  /-- It lands with the answer that it waited for. -/
  | freed {f : Flight κ ν τ α δ} {a : Answer κ ν τ α} (hf : s.flights[l]? = some f)
      (hp : f.progress = .freed a) : LoadTurn s l (s.land C l f a)

/-- **How the turn of a load goes.**

**Proof sketch.** The cases are those of the progress of the load: before its first turn it calls,
once it was freed it lands, and otherwise it does nothing. -/
theorem loadTurn (l : Nat) : LoadTurn C s l (s.turnLoad C l) := by
  unfold turnLoad
  cases hf : s.flights[l]? with
  | none => exact .idle fun f h => absurd (hf.symm.trans h) (by simp)
  | some f =>
    have hidle (hp : f.progress = .held ∨ ∃ r, f.progress = .landed r) : LoadTurn C s l s :=
      .idle fun g hg => by rwa [← Option.some.inj (hf.symm.trans hg)]
    cases hp : f.progress with
    | fresh =>
      simp only [hp]
      rcases ha : s.ask C f.job with ⟨a | gate, s'⟩
      · obtain rfl : (s.ask C f.job).2 = s' := by rw [ha]
        exact .answered hf hp (by rw [ha])
      · obtain rfl : (s.ask C f.job).2 = s' := by rw [ha]
        exact .asked hf hp (by rw [ha])
    | freed a =>
      simp only [hp]
      exact .freed hf hp
    | held =>
      simp only [hp]
      exact hidle (.inl hp)
    | landed r =>
      simp only [hp]
      exact hidle (.inr ⟨r, hp⟩)

/-- The turn of a load takes each load at most one step, and no other than its own.

**Proof sketch.** By `loadTurn` the load is put to wait, lands, or is left alone. All of these set
the progress of this load, and of no other. -/
lemma flightStep_turnLoad (l m : Nat) :
    FlightStep l (.turn (.load m) : Move σ κ ν τ α φ) s.flights[l]?
      (s.turnLoad C m).flights[l]? := by
  have hset {f : Flight κ ν τ α δ} (hf : s.flights[m]? = some f) (p : Progress κ ν τ α)
      (hl : FlightStep m (.turn (.load m) : Move σ κ ν τ α φ) (some f)
        (some { f with progress := p })) :
      FlightStep l (.turn (.load m) : Move σ κ ν τ α φ) s.flights[l]?
        (s.setProgress m p).flights[l]? := by
    by_cases hm : m = l
    · subst hm
      rw [flights_setProgress_self hf, hf]
      exact hl
    · rw [flights_setProgress_ne hm]
      exact .same _ _
  have hturn := loadTurn (C := C) (s := s) m
  generalize s.turnLoad C m = s' at hturn ⊢
  cases hturn with
  | idle => exact .same _ _
  | asked hf hp ha => exact hset hf _ (.held hp)
  | answered hf hp ha => exact hset hf _ (.landed (by rw [hp]; rfl) _)
  | freed hf hp => exact hset hf _ (.landed (by rw [hp]; rfl) _)

/-! ## Moves -/

/-- **What becomes of a load** in one move.

**Proof sketch.** Only the turns of callers and loads, and a released gate, touch a load, and each
has its own lemma. All other moves leave it as it was. -/
theorem flightStep_move (l : Nat) (m : Move σ κ ν τ α φ) :
    FlightStep l m s.flights[l]? (s.move C m).flights[l]? := by
  cases m with
  | cancel c =>
    rw [move, flights_cancel]
    exact .same _ _
  | release gate a =>
    rw [move]
    rcases flights_release (s := s) gate a l with hsame | ⟨f, hf, hheld, hfreed⟩
    · rw [hsame]
      exact .same _ _
    · rw [hf, hfreed]
      exact .freed gate a hheld
  | spawn _ | edit _ | elapse _ | stir _ | schedule _ => exact .same _ _
  | turn t =>
    cases t with
    | caller c => exact flightStep_turnCaller l c
    | load m => exact flightStep_turnLoad l m
    | deliver m c =>
      rw [move, turn, flights_deliver]
      exact .same _ _

end Parts

end NodeKeeper.Session
