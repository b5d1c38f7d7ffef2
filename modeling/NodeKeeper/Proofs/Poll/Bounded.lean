import Mathlib.Data.List.Chain
import Mathlib.Data.Rat.Floor
import Mathlib.Tactic.Linarith
import NodeKeeper.Proofs.Poll.Decisive

/-!
# How long a wait lasts

A wait looks at its deadline only after a check that did not pass, and never cuts a pause short. It
is over in time all the same: a check starts at least one pause later than the one before, so that
the deadline has gone by after so many checks, and no check starts later than a pause after the
deadline.

## Main definitions

* `Poll.Punctual` — pauses take exactly what they should, and it is kept when checks began.
* `Poll.Lasts` — what a wait comes to from an attempt on.

## Main results

* `Poll.Punctual.lasts_pollFrom` — a wait after some attempts.
* `Poll.wait_bounded` — a wait makes so many checks at most, and is over in so much time.
* `Poll.Course.punctual` — every course is punctual whose checks take no less than no time.

## Implementation notes

The clock is exact, and checks may do anything to their world and take any time. A world keeps a
list of the instants at which checks began, so that what is said of them is said of the run itself.
-/

namespace NodeKeeper.Poll

variable {ω : Type}

/-- The surroundings of a wait are punctual: a pause takes exactly as long as it should, a check
takes some time and ends, and keeping notes takes none. The world keeps the instants at which checks
began. -/
structure Punctual (ins : Instruments ℚ ω) (s : Settings ℚ) (check : Flow ω Bool)
    (began : ω → List ℚ) : Prop where
  check_now : ∀ w, ins.now w ≤ ins.now (check w).2
  check_ends : ∀ w, (check w).1 ≠ .unfinished
  check_began : ∀ w, began (check w).2 = began w ++ [ins.now w]
  pause : ∀ w, ∃ w', ins.pause s.period w = (.returned (), w') ∧
    ins.now w' = ins.now w + s.period ∧ began w' = began w
  note_now : ∀ n w, ins.now (ins.note n w) = ins.now w
  note_began : ∀ n w, began (ins.note n w) = began w

/-- What a wait that started at an instant comes to from an attempt on, with so many more to follow
at most. The instants are those at which its checks began, the last one apart. -/
structure Lasts (ins : Instruments ℚ ω) (s : Settings ℚ) (began : ω → List ℚ) (started : ℚ)
    (n more : ℕ) (w : ω) (starts : List ℚ) (last : ℚ) (e : Ending (Outcome ℚ)) (w' : ω) :
    Prop where
  ended : e ≠ .unfinished
  began : began w' = began w ++ starts ++ [last]
  first : (starts ++ [last]).head? = some (ins.now w)
  length_le : starts.length ≤ more
  apart : (starts ++ [last]).IsChain fun a b => a + s.period ≤ b
  last_lt : last < started + s.timeout + s.period
  outcome : ∀ o, e = .returned o → o.attempts = n + starts.length + 1 ∧
    o.elapsed = ins.now w' - started ∧ (o.ready = false → s.timeout ≤ o.elapsed)

/-- What an attempt that does not pass, and is over before the deadline, leads to: a pause, and a
wait that starts with the next attempt. -/
structure GoesOn (ins : Instruments ℚ ω) (s : Settings ℚ) (check : Flow ω Bool) (began : ω → List ℚ)
    (started : ℚ) (n : ℕ) (w w₁ : ω) : Prop where
  began : began w₁ = began w ++ [ins.now w]
  apart : ins.now w + s.period ≤ ins.now w₁
  early : ins.now w₁ < started + s.timeout + s.period
  next : ∀ more, pollFrom ins s check started (more + 1) n w =
    pollFrom ins s check started more (n + 1) w₁

section Bounded

variable {ins : Instruments ℚ ω} {s : Settings ℚ} {check : Flow ω Bool} {began : ω → List ℚ}

/-- The wait goes on after an attempt.

**Proof sketch.** What is said of the attempts that follow is said of all of them once the first one
is put in front: it is one more, and it began at least a period before the next one. -/
lemma Lasts.cons {started : ℚ} {n more : ℕ} {w w₁ : ω} {starts : List ℚ} {last : ℚ}
    {e : Ending (Outcome ℚ)} {w' : ω} (hgoes : GoesOn ins s check began started n w w₁)
    (h : Lasts ins s began started (n + 1) more w₁ starts last e w') :
    Lasts ins s began started n (more + 1) w (ins.now w :: starts) last e w' where
  ended := h.ended
  began := by simp [h.began, hgoes.began]
  first := rfl
  length_le := Nat.succ_le_succ h.length_le
  apart := by
    refine List.isChain_cons.2 ⟨fun b hb => ?_, h.apart⟩
    obtain rfl := Option.some.inj (hb.symm.trans h.first)
    exact hgoes.apart
  last_lt := h.last_lt
  outcome := fun o ho => by
    obtain ⟨hattempts, houtcome⟩ := h.outcome o ho
    exact ⟨by rw [hattempts, List.length_cons]; omega, houtcome⟩

namespace Punctual

variable {started : ℚ} {n more : ℕ} {w : ω}

/-- An attempt ends when its check does.

**Proof sketch.** Follow the ways in which the check can end. A note takes no time and begins no
attempt. -/
lemma attempt (H : Punctual ins s check began) (n : ℕ) (w : ω) :
    (Poll.attempt ins s check n w).1 ≠ .unfinished ∧
      ins.now w ≤ ins.now (Poll.attempt ins s check n w).2 ∧
      began (Poll.attempt ins s check n w).2 = began w ++ [ins.now w] := by
  have hnow := H.check_now w
  have hends := H.check_ends w
  have hbegan := H.check_began w
  unfold Poll.attempt
  rcases hcheck : check w with ⟨(_ | _) | f | _, w'⟩
  · rw [hcheck] at hnow hbegan
    exact ⟨by simp, by simpa [H.note_now] using hnow, by simpa [H.note_began] using hbegan⟩
  · rw [hcheck] at hnow hbegan
    exact ⟨by simp, hnow, hbegan⟩
  · rw [hcheck] at hnow hbegan
    dsimp only
    split
    · exact ⟨by simp, by simpa [H.note_now] using hnow, by simpa [H.note_began] using hbegan⟩
    · exact ⟨by simp, hnow, hbegan⟩
  · exact absurd (congrArg Prod.fst hcheck) hends

/-- An attempt ends the wait, or the wait goes on; it ends if the deadline had gone by before the
attempt.

**Proof sketch.** The attempt ends. If it passed or failed, or if the time is up after it, the wait
is over, and it was the last attempt that began before the deadline and one period. If not, the time
was not up when it began, and the pause leads to the next attempt. -/
lemma lasts_or_goesOn (H : Punctual ins s check began) (n more : ℕ)
    (hlast : ins.now w < started + s.timeout + s.period) :
    (∃ e w', (∀ horizon, pollFrom ins s check started horizon n w = (e, w')) ∧
      Lasts ins s began started n more w [] (ins.now w) e w') ∨
      ins.now w < started + s.timeout ∧ ∃ w₁, GoesOn ins s check began started n w w₁ := by
  obtain ⟨hends, hnow, hbegan⟩ := H.attempt (n + 1) w
  rcases hattempt : Poll.attempt ins s check (n + 1) w with ⟨passed | f | _, w₁⟩
  · rw [hattempt] at hnow hbegan
    have hgoes (horizon : ℕ) := (congrFun (pollFrom_eq ins s check started horizon n) w).trans
      (Flow.bind_of_returned hattempt)
    -- the wait is over
    have hover (ready : Bool) (hready : ready = false → s.timeout ≤ ins.now w₁ - started)
        (hconclude : ∀ horizon, pollFrom ins s check started horizon n w =
          conclude ins s ready (n + 1) started w₁) :
        ∃ e w', (∀ horizon, pollFrom ins s check started horizon n w = (e, w')) ∧
          Lasts ins s began started n more w [] (ins.now w) e w' := by
      refine ⟨_, _, hconclude, by simp, ?_, rfl, Nat.zero_le _, List.isChain_singleton _, hlast, ?_⟩
      · rw [H.note_began, hbegan, List.append_nil]
      · rintro o ⟨⟩
        rw [H.note_now]
        exact ⟨rfl, rfl, hready⟩
    cases passed with
    | true => exact .inl (hover true (by simp) hgoes)
    | false =>
      by_cases hlate : s.timeout ≤ ins.now w₁ - started
      · refine .inl (hover false (fun _ => hlate) fun horizon => ?_)
        exact (hgoes horizon).trans (if_pos hlate)
      · obtain ⟨w₂, hpause, hnow₂, hbegan₂⟩ := H.pause w₁
        refine .inr ⟨by linarith, w₂, hbegan₂.trans hbegan, by linarith, by linarith, ?_⟩
        intro more
        exact (hgoes _).trans ((if_neg hlate).trans (Flow.bind_of_returned hpause))
  · rw [hattempt] at hbegan
    refine .inl ⟨.raised f, w₁, fun horizon => ?_, by simp, ?_, rfl, Nat.zero_le _,
      List.isChain_singleton _, hlast, by simp⟩
    · exact (congrFun (pollFrom_eq ins s check started horizon n) w).trans
        (Flow.bind_of_raised hattempt)
    · rw [hbegan, List.append_nil]
  · exact absurd (congrArg Prod.fst hattempt) hends

/-- **A wait after some attempts.** Each of them took one pause at least, so that the deadline has
gone by when there were enough of them.

**Proof sketch.** By induction on the attempts that are left. With none left the deadline has gone
by when the next check starts, and the wait ends with it. -/
theorem lasts_pollFrom (H : Punctual ins s check began)
    (henough : s.timeout ≤ (n + more : ℕ) * s.period) (hn : started + n * s.period ≤ ins.now w)
    (hlast : ins.now w < started + s.timeout + s.period) :
    ∃ starts last e w', (∀ horizon ≥ more, pollFrom ins s check started horizon n w = (e, w')) ∧
      Lasts ins s began started n more w starts last e w' := by
  induction more generalizing n w with
  | zero =>
    rcases H.lasts_or_goesOn n 0 hlast with ⟨e, w', hover, hlasts⟩ | ⟨hearly, -⟩
    · exact ⟨[], ins.now w, e, w', fun horizon _ => hover horizon, hlasts⟩
    · rw [Nat.add_zero] at henough
      linarith
  | succ more ih =>
    rcases H.lasts_or_goesOn n (more + 1) hlast with
      ⟨e, w', hover, hlasts⟩ | ⟨-, w₁, hgoes⟩
    · exact ⟨[], ins.now w, e, w', fun horizon _ => hover horizon, hlasts⟩
    · have hmore : n + 1 + more = n + (more + 1) := by omega
      have hn₁ : started + (n + 1 : ℕ) * s.period ≤ ins.now w₁ := by
        have hpause := hgoes.apart
        push_cast
        linarith
      obtain ⟨starts, last, e, w', hgoes', hlasts⟩ := ih (hmore ▸ henough) hn₁ hgoes.early
      refine ⟨ins.now w :: starts, last, e, w', fun horizon hhorizon => ?_, hlasts.cons hgoes⟩
      obtain ⟨horizon, rfl⟩ : ∃ k, horizon = k + 1 := ⟨horizon - 1, by omega⟩
      rw [hgoes.next horizon]
      exact hgoes' horizon (by omega)

end Punctual

/-- **A wait is over in time.** If clock and pauses are exact and every check ends, a wait with a
positive limit and positive pauses ends after no more checks than there are pauses up to the
deadline, and one. It is over in less than the time allowed, one pause and the last check, however
long the checks take; a check starts at least one pause later than the one before; and if the wait
does not get ready, the time allowed has gone by.

**Proof sketch.** Before an attempt, every earlier one has taken a pause, and the deadline had not
gone by a pause ago. The attempts that are left are counted by `lasts_pollFrom`. -/
theorem wait_bounded (H : Punctual ins s check began) (htimeout : 0 < s.timeout)
    (hperiod : 0 < s.period) (w : ω) :
    ∃ starts last e w',
      -- the wait ends, however long it is observed beyond that
      (∀ horizon ≥ ⌈s.timeout / s.period⌉₊, poll ins s check horizon w = (e, w')) ∧
      e ≠ .unfinished ∧
      -- its checks
      began w' = began w ++ (starts ++ [last]) ∧
      (starts ++ [last]).length ≤ ⌈s.timeout / s.period⌉₊ + 1 ∧
      (starts ++ [last]).IsChain (fun a b => a + s.period ≤ b) ∧
      -- its duration
      ins.now w' - ins.now w < s.timeout + s.period + (ins.now w' - last) ∧
      ∀ o, e = .returned o → o.attempts = (starts ++ [last]).length ∧
        o.elapsed = ins.now w' - ins.now w ∧ (o.ready = false → s.timeout ≤ o.elapsed) := by
  have henough : s.timeout ≤ (0 + ⌈s.timeout / s.period⌉₊ : ℕ) * s.period := by
    rw [Nat.zero_add, ← div_le_iff₀ hperiod]
    exact Nat.le_ceil _
  have hstart : ins.now w + (0 : ℕ) * s.period ≤ ins.now w := by simp
  obtain ⟨starts, last, e, w', hgoes, hlasts⟩ := H.lasts_pollFrom henough hstart (by linarith)
  have hlength := hlasts.length_le
  refine ⟨starts, last, e, w', fun horizon hhorizon => ?_, hlasts.ended, ?_, by simpa using hlength,
    hlasts.apart, by linarith [hlasts.last_lt], fun o ho => ?_⟩
  · rw [← hgoes horizon hhorizon]
    exact (if_neg htimeout.not_ge).trans (if_neg hperiod.not_ge)
  · rw [hlasts.began, List.append_assoc]
  · obtain ⟨hattempts, houtcome⟩ := hlasts.outcome o ho
    refine ⟨?_, houtcome⟩
    rw [hattempts, List.length_append, List.length_singleton]
    omega

end Bounded

/-! ## Courses -/

/-- A world in which a course is taken, and in which the instants are kept at which checks began. -/
structure Diary where
  now : ℚ
  began : List ℚ := []

namespace Course

/-- The checks of a course. -/
def entered (c : Course ℚ) : Flow Diary Bool := fun w =>
  let w' : Diary := ⟨w.now + c.took w.began.length, w.began ++ [w.now]⟩
  match c.outcome w.began.length with
  | .ok v => (.returned v.isTruthy, w')
  | .error f => (.raised f, w')

/-- The instruments of a wait whose pauses are exact. -/
def exact : Instruments ℚ Diary where
  now := Diary.now
  pause d := Flow.change fun w => { w with now := w.now + d }
  note _ w := w
  written := toString

/-- **Every course is punctual**, whatever its checks come to, and however long they take.

**Proof sketch.** The time of an attempt is not negative, and the clock of a course does not go for
any other reason. -/
lemma punctual (c : Course ℚ) (htook : ∀ n, 0 ≤ c.took n) (s : Settings ℚ) :
    Punctual exact s c.entered Diary.began where
  check_now w := by
    have hle := htook w.began.length
    unfold entered
    cases c.outcome w.began.length <;> simpa [exact] using hle
  check_ends w := by
    unfold entered
    cases c.outcome w.began.length <;> simp
  check_began w := by
    unfold entered
    cases c.outcome w.began.length <;> rfl
  pause w := ⟨{ w with now := w.now + s.period }, rfl, rfl, rfl⟩
  note_now _ _ := rfl
  note_began _ _ := rfl

/-- The checks take longer and longer, and never pass. -/
def slowing : Course ℚ where
  outcome n := if n = 1 then .error (.missingKey "status") else .ok .null
  took n := n / 2
  rested _ := 1

/-- Such a wait is over after three checks, and lasts longer than was allowed.

**Proof sketch.** The theorem is applied to this wait, whose outcome is computed: it was not ready
when it ended. -/
theorem wait_bounded_slowing :
    let s : Settings ℚ := ⟨1, 5 / 2, [.lookup], "node"⟩
    Punctual exact s slowing.entered Diary.began ∧ 0 < s.timeout ∧ 0 < s.period ∧
      ∃ o w', poll exact s slowing.entered 3 ⟨0, []⟩ = (.returned o, w') ∧ o.ready = false ∧
        o.attempts ≤ 4 ∧ 5 / 2 ≤ o.elapsed ∧
        ∃ starts last, w'.began = starts ++ [last] ∧ w'.now < 5 / 2 + 1 + (w'.now - last) := by
  intro s
  have hpunctual := slowing.punctual (fun n => by simp only [slowing]; positivity) s
  have htimeout : 0 < s.timeout := by norm_num [s]
  have hperiod : 0 < s.period := by norm_num [s]
  have hceil : ⌈s.timeout / s.period⌉₊ = 3 := by
    rw [Nat.ceil_eq_iff (by norm_num)]
    norm_num [s]
  have hlate : (poll exact s slowing.entered 3 ⟨0, []⟩).1.result?.map Outcome.ready =
      some false := by decide +kernel
  obtain ⟨starts, last, e, w', hgoes, -, hbegan, hlength, -, hshort, houtcome⟩ :=
    wait_bounded hpunctual htimeout hperiod ⟨0, []⟩
  rw [hceil] at hgoes hlength
  have hrun := hgoes 3 (Nat.le_refl 3)
  rw [hrun] at hlate
  obtain ⟨o, ho, hready⟩ := Option.map_eq_some_iff.1 hlate
  obtain rfl := Ending.eq_returned_of_result? ho
  obtain ⟨hattempts, -, helapsed⟩ := houtcome o rfl
  refine ⟨hpunctual, htimeout, hperiod, o, w', hrun, hready, hattempts ▸ hlength,
    helapsed hready, starts, last, by simpa using hbegan, ?_⟩
  simpa [exact, s] using hshort

end Course

end NodeKeeper.Poll
