import Mathlib.Algebra.Ring.Int.Defs
import Mathlib.Tactic.ByContra
import NodeKeeper.Proofs.Flow.Waiting

/-!
# The attempt that decides a wait

A wait is put together of what counts as "not yet", when to give up, and how long to pause. What it
comes to can be said without any of these: there is a first attempt that decides, and the wait ends
with it. An attempt decides if its check passes, if it fails for good, or if the deadline has gone
by when it is over; a check that passes counts even then.

## Main definitions

* `Poll.Course` — what the checks of a wait come to, and how long checks and pauses take.
* `Poll.Course.Decisive` — the attempts that decide.
* `Poll.Course.verdict` — what a wait ends with if an attempt decides.
* `Poll.Course.steps` — the checks up to an attempt, and the pauses between them.

## Main results

* `Poll.Course.pollFrom_of_decisive`, `Poll.Course.pollFrom_of_undecided` — a wait after some
  attempts.
* `Poll.Course.poll_until_decided` — a wait goes on up to the first attempt that decides.

## Implementation notes

Instants and durations are of any type on which a wait can run, and a course says freely how long
its checks and pauses take. A wait that does not end is one that is unfinished however long it is
observed.
-/

namespace NodeKeeper.Poll

variable {τ : Type}

/-- What the checks of a wait come to, and how long checks and pauses take. -/
structure Course (τ : Type) where
  /-- The document that a check answers with, or its fault. -/
  outcome : Nat → Except Fault Value
  took : Nat → τ
  /-- How long the pause before a check takes. There is none before the first one. -/
  rested : Nat → τ

/-- What a wait goes through. -/
inductive Step (τ : Type) where
  | checked (n : Nat)
  | slept (s : τ)
deriving DecidableEq, Repr

/-- A world in which a wait takes its course. -/
structure Bench (τ : Type) where
  now : τ
  /-- The check that is next. -/
  next : Nat := 0
  steps : List (Step τ) := []

namespace Course

section Def

variable [Add τ]

/-- The check of a course: the documents that count as "yes" pass. -/
def check (c : Course τ) : Flow (Bench τ) Bool := fun w =>
  let w' : Bench τ := ⟨w.now + c.took w.next, w.next + 1, w.steps ++ [.checked w.next]⟩
  match c.outcome w.next with
  | .ok v => (.returned v.isTruthy, w')
  | .error f => (.raised f, w')

/-- A course as the instruments of a wait. -/
def instruments (c : Course τ) (written : τ → String) : Instruments τ (Bench τ) where
  now := Bench.now
  pause d := Flow.change fun w =>
    { w with now := w.now + c.rested w.next, steps := w.steps ++ [.slept d] }
  note _ w := w
  written := written

/-- The reading of the clock after a check. -/
def clock (c : Course τ) (started : τ) : Nat → τ
  | 0 => started + c.took 0
  | n + 1 => c.clock started n + c.rested (n + 1) + c.took (n + 1)

variable [Sub τ] [LE τ]

/-- The attempt decides: its check passes, or fails for good, or the deadline has gone by. -/
def Decisive (c : Course τ) (s : Settings τ) (started : τ) (n : Nat) : Prop :=
  (∃ v, c.outcome n = .ok v ∧ v.isTruthy = true) ∨
    (∃ f, c.outcome n = .error f ∧ s.forgives f = false) ∨ s.timeout ≤ c.clock started n - started

/-- What an attempt comes to. A fault that is forgiven is a "no". -/
def answer (c : Course τ) (s : Settings τ) (n : Nat) : Except Fault Bool :=
  match c.outcome n with
  | .ok v => .ok v.isTruthy
  | .error f => if s.forgives f then .ok false else .error f

/-- What a wait ends with if the attempt decides. -/
def verdict (c : Course τ) (s : Settings τ) (started : τ) (n : Nat) : Ending (Outcome τ) :=
  match c.answer s n with
  | .ok passed => .returned ⟨passed, n + 1, c.clock started n - started⟩
  | .error f => .raised f

end Def

/-- So many checks from some attempt on, and the pauses between them. -/
def steps (s : Settings τ) (n more : Nat) : List (Step τ) :=
  ((List.range' n (more + 1)).map .checked).intersperse (.slept s.period)

/-- More attempts begin with one attempt and one pause, and go on from there. -/
lemma steps_succ (s : Settings τ) (n more : Nat) :
    steps s n (more + 1) = .checked n :: .slept s.period :: steps s (n + 1) more := rfl

variable [Add τ] [Sub τ] [LE τ] [DecidableLE τ] {c : Course τ} {s : Settings τ}
  {written : τ → String} {started : τ} {n : Nat} {w : Bench τ}

/-! ### One attempt -/

/-- The bench is where the attempt starts. -/
structure Ready (c : Course τ) (started : τ) (n : Nat) (w : Bench τ) : Prop where
  next : w.next = n
  now : w.now + c.took n = c.clock started n

/-- The bench after the attempt. -/
def done (c : Course τ) (started : τ) (n : Nat) (w : Bench τ) : Bench τ :=
  ⟨c.clock started n, n + 1, w.steps ++ [.checked n]⟩

/-- The bench after the pause that follows. -/
def paused (c : Course τ) (s : Settings τ) (started : τ) (n : Nat) (w : Bench τ) : Bench τ :=
  ⟨c.clock started n + c.rested (n + 1), n + 1, w.steps ++ [.checked n, .slept s.period]⟩

omit [Sub τ] [LE τ] [DecidableLE τ] in
/-- Once a pause is over, the wait is ready for the next attempt: so much time has passed, and the
course is where it was. -/
lemma ready_paused (c : Course τ) (s : Settings τ) (started : τ) (n : Nat) (w : Bench τ) :
    Ready c started (n + 1) (paused c s started n w) := ⟨rfl, rfl⟩

omit [Sub τ] [LE τ] [DecidableLE τ] in
/-- An attempt, whatever it comes to, is over when its check is.

**Proof sketch.** The bench is moved on by one check, which comes to the outcome with this number.
The attempt passes, does not pass, or fails as `answer` says. -/
lemma attempt_of_ready (s : Settings τ) (written : τ → String) (hw : Ready c started n w) :
    Poll.attempt (c.instruments written) s c.check (n + 1) w =
      (match c.answer s n with
        | .ok passed => .returned passed
        | .error f => .raised f, done c started n w) := by
  have hdone : (⟨w.now + c.took w.next, w.next + 1, w.steps ++ [.checked w.next]⟩ : Bench τ) =
      done c started n w := by
    rw [hw.next, hw.now, done]
  unfold Poll.attempt check answer
  rw [hdone, hw.next]
  cases c.outcome n with
  | ok v =>
    dsimp only
    cases v.isTruthy <;> rfl
  | error f =>
    dsimp only
    split <;> rfl

omit [DecidableLE τ] in
/-- What an attempt that does not decide comes to. -/
lemma not_decisive_iff :
    ¬ c.Decisive s started n ↔
      c.answer s n = .ok false ∧ ¬ s.timeout ≤ c.clock started n - started := by
  unfold Decisive answer
  cases c.outcome n with
  | ok v => simp
  | error f => cases s.forgives f <;> simp

/-- An attempt that decides is the last one.

**Proof sketch.** The attempt comes to its answer. If that is a fault, or that it passed, the wait
ends with it; and if it did not pass, it decides because the time is up. -/
lemma pollFrom_of_decides (hw : Ready c started n w) (h : c.Decisive s started n)
    (horizon : Nat) :
    pollFrom (c.instruments written) s c.check started horizon n w =
      (c.verdict s started n, done c started n w) := by
  have hattempt := attempt_of_ready s written hw
  unfold verdict
  rw [pollFrom_eq]
  rcases hanswer : c.answer s n with f | passed
  · rw [hanswer] at hattempt
    exact Flow.bind_of_raised hattempt
  · rw [hanswer] at hattempt
    refine (Flow.bind_of_returned hattempt).trans ?_
    cases passed with
    | true => rfl
    | false =>
      have hlate : s.timeout ≤ c.clock started n - started := by
        by_contra hearly
        exact not_decisive_iff.2 ⟨hanswer, hearly⟩ h
      exact if_pos hlate

/-- An attempt that does not decide is followed by a pause, if the wait is observed any longer.

**Proof sketch.** An attempt that does not decide did not pass, and the time is not up after it; so
that the wait goes on with a pause, or is not observed any longer. -/
lemma pollFrom_of_not_decides (hw : Ready c started n w) (h : ¬ c.Decisive s started n)
    (horizon : Nat) :
    pollFrom (c.instruments written) s c.check started horizon n w =
      match horizon with
      | 0 => (.unfinished, done c started n w)
      | more + 1 => pollFrom (c.instruments written) s c.check started more (n + 1)
          (paused c s started n w) := by
  obtain ⟨hanswer, hearly⟩ := not_decisive_iff.1 h
  have hattempt := attempt_of_ready s written hw
  rw [hanswer] at hattempt
  rw [pollFrom_eq]
  refine (Flow.bind_of_returned hattempt).trans ((if_neg hearly).trans ?_)
  cases horizon with
  | zero => rfl
  | succ more =>
    refine Flow.bind_of_returned (a := ()) ?_
    simp [instruments, Flow.change, done, paused]

/-! ### Whole waits -/

/-- **A wait after some attempts** ends with the first attempt that decides, if it is observed up to
there.

**Proof sketch.** Induction on the number of attempts before the one that decides. Each of them is
followed by a pause, which uses up one of those for which the wait is observed. -/
theorem pollFrom_of_decisive (written : τ → String) {more : Nat} (hw : Ready c started n w)
    (hlast : c.Decisive s started (n + more)) (hfirst : ∀ m < more, ¬ c.Decisive s started (n + m))
    {horizon : Nat} (hhorizon : more ≤ horizon) :
    pollFrom (c.instruments written) s c.check started horizon n w =
      (c.verdict s started (n + more),
        ⟨c.clock started (n + more), n + more + 1, w.steps ++ steps s n more⟩) := by
  induction more generalizing n w horizon with
  | zero => exact pollFrom_of_decides hw hlast horizon
  | succ more ih =>
    obtain ⟨horizon, rfl⟩ : ∃ k, horizon = k + 1 := ⟨horizon - 1, by omega⟩
    rw [pollFrom_of_not_decides hw (hfirst 0 (by omega)) (horizon + 1)]
    have hshift (m : Nat) : n + 1 + m = n + (m + 1) := by omega
    refine (ih (ready_paused c s started n w) (hshift more ▸ hlast)
      (fun m hm => hshift m ▸ hfirst (m + 1) (by omega)) (by omega)).trans ?_
    rw [hshift more, steps_succ]
    simp [paused]

/-- **A wait in which no attempt decides** is still running at the end of the observation.

**Proof sketch.** The induction is on the horizon. An attempt that does not decide leads to a pause,
and after it to the next attempt. -/
theorem pollFrom_of_undecided (written : τ → String) (hw : Ready c started n w) (horizon : Nat)
    (hnone : ∀ m ≤ horizon, ¬ c.Decisive s started (n + m)) :
    pollFrom (c.instruments written) s c.check started horizon n w =
      (.unfinished,
        ⟨c.clock started (n + horizon), n + horizon + 1, w.steps ++ steps s n horizon⟩) := by
  induction horizon generalizing n w with
  | zero => exact pollFrom_of_not_decides hw (hnone 0 (Nat.le_refl 0)) 0
  | succ horizon ih =>
    rw [pollFrom_of_not_decides hw (hnone 0 (by omega)) (horizon + 1)]
    have hshift (m : Nat) : n + 1 + m = n + (m + 1) := by omega
    refine (ih (ready_paused c s started n w)
      fun m hm => hshift m ▸ hnone (m + 1) (by omega)).trans ?_
    rw [hshift horizon, steps_succ]
    simp [paused]

variable [Zero τ]

/-- **The first attempt that decides.** A wait that is allowed no time, or no pause, says so and
makes no check. Any other wait makes the checks up to the first attempt that decides and one pause
between two of them, and ends with the verdict on that attempt: it is ready after so many attempts
even if the deadline has gone by, a fault that is not forgiven is passed on, and otherwise it is not
ready after so many attempts. As long as no attempt decides it goes on.

**Proof sketch.** The bench stands ready for the first attempt. What is left is
`pollFrom_of_decisive` and `pollFrom_of_undecided`, which go by induction on the attempts that are
left and on the length of the observation. -/
theorem poll_until_decided (c : Course τ) (s : Settings τ) (written : τ → String) (started : τ)
    (horizon : Nat) :
    let run := poll (c.instruments written) s c.check horizon ⟨started, 0, []⟩
    (s.timeout ≤ 0 → run =
      (.raised (.badValue s!"timeout must be positive, got {written s.timeout}"),
        ⟨started, 0, []⟩)) ∧
    (¬ s.timeout ≤ 0 → s.period ≤ 0 → run =
      (.raised (.badValue s!"period must be positive, got {written s.period}"),
        ⟨started, 0, []⟩)) ∧
    (¬ s.timeout ≤ 0 → ¬ s.period ≤ 0 →
      (∀ n ≤ horizon, c.Decisive s started n → (∀ m < n, ¬ c.Decisive s started m) →
        run = (c.verdict s started n, ⟨c.clock started n, n + 1, steps s 0 n⟩)) ∧
      ((∀ n ≤ horizon, ¬ c.Decisive s started n) →
        run = (.unfinished, ⟨c.clock started horizon, horizon + 1, steps s 0 horizon⟩))) := by
  have hready : Ready c started 0 ⟨started, 0, []⟩ := ⟨rfl, rfl⟩
  refine ⟨fun ht => if_pos ht, fun ht hp => (if_neg ht).trans (if_pos hp), fun ht hp => ?_⟩
  have hstart : poll (c.instruments written) s c.check horizon ⟨started, 0, []⟩ =
      pollFrom (c.instruments written) s c.check started horizon 0 ⟨started, 0, []⟩ :=
    (if_neg ht).trans (if_neg hp)
  rw [hstart]
  constructor
  · intro n hn hlast hfirst
    have hend := pollFrom_of_decisive written hready
      (by rwa [Nat.zero_add]) (fun m hm => by rw [Nat.zero_add]; exact hfirst m hm) hn
    rwa [Nat.zero_add] at hend
  · intro hnone
    have hend := pollFrom_of_undecided written hready horizon
      fun m hm => by rw [Nat.zero_add]; exact hnone m hm
    rwa [Nat.zero_add] at hend

/-- A record lacks a field at first; the check passes when the deadline has gone by. -/
def overdue : Course Int where
  outcome n := if n = 0 then .error (.missingKey "status") else .ok (.text "ACTIVE")
  took _ := 2
  rested _ := 1

/-- The wait is ready after the second attempt, though it took longer than was allowed. -/
theorem poll_until_decided_overdue :
    poll (overdue.instruments toString) ⟨1, 3, [.lookup], "node"⟩ overdue.check 5 ⟨0, 0, []⟩ =
      (.returned ⟨true, 2, 5⟩, ⟨5, 2, [.checked 0, .slept 1, .checked 1]⟩) := by
  have hfirst : ∀ m < 1, ¬ overdue.Decisive ⟨1, 3, [.lookup], "node"⟩ 0 m := by
    intro m hm
    obtain rfl : m = 0 := by omega
    exact not_decisive_iff.2 ⟨rfl, by decide⟩
  obtain ⟨hready, -⟩ := (poll_until_decided overdue ⟨1, 3, [.lookup], "node"⟩ toString 0 5).2.2
    (by decide) (by decide)
  exact hready 1 (by decide) (Or.inl ⟨.text "ACTIVE", rfl, by decide⟩) hfirst

end Course

end NodeKeeper.Poll
