import NodeKeeper.Proofs.Fault.Kinds
import NodeKeeper.Proofs.Flow.Meets

/-!
# The rule for bounded waits

A bounded wait goes through attempts and pauses until an attempt passes or the deadline has gone by.
What it meets follows from two invariants: what holds before an attempt, and what holds after one
that did not pass.

## Main definitions

* `Poll.Settings.flaw?` — what is wrong with how to wait.
* `Poll.Keeps` — the invariants of a wait, and what it ends with.

## Main results

* `Poll.poll_of_flaw`, `Poll.poll_of_flawless` — a wait starts unless it has a flaw.
* `Poll.Keeps.meets_pollFrom`, `Poll.Keeps.meets_poll` — a wait meets what its invariants say.
* `Poll.meets_poll_forall` — what holds of all that a check goes through, and of pauses, holds of
  all that a wait goes through; what a check leaves alone, a wait leaves alone.
-/

namespace NodeKeeper.Poll

variable {σ : Type}

/-- A wait that forgives faults that can be handled only does not forgive a cancellation. -/
lemma isA_cancelled_of_forgives {s : Settings Float}
    (ht : ∀ k ∈ s.transient, k.isA .ordinary = true) {f : Fault} (hf : s.forgives f = true) :
    f.isA .cancelled = false := by
  refine Bool.eq_false_iff.2 fun hcancel => ?_
  obtain ⟨k, hk, hfk⟩ := List.any_eq_true.1 hf
  rw [Fault.isA_eq_false_of_cancelled hcancel (ht k hk)] at hfk
  exact Bool.false_ne_true hfk

/-- A wait is an attempt followed by what it leads to: the end of the wait, or a pause and a wait
that is observed for one pause less.

**Proof sketch.** Unfold one round of the wait, and follow the ways in which its attempt, and then
its pause, can end. -/
theorem pollFrom_eq {τ ω : Type} [Sub τ] [LE τ] [DecidableLE τ] (ins : Instruments τ ω)
    (s : Settings τ) (check : Flow ω Bool) (started : τ) (horizon n : Nat) :
    pollFrom ins s check started horizon n =
      Poll.attempt ins s check (n + 1) >>= fun passed w =>
        if passed then conclude ins s true (n + 1) started w
        else if s.timeout ≤ ins.now w - started then conclude ins s false (n + 1) started w
        else
          match horizon with
          | 0 => (.unfinished, w)
          | more + 1 =>
            (ins.pause s.period >>= fun _ => pollFrom ins s check started more (n + 1)) w := by
  funext w
  conv => lhs; unfold pollFrom
  change _ = Flow.andThen _ _ w
  unfold Flow.andThen
  rcases Poll.attempt ins s check (n + 1) w with ⟨(_ | _) | _ | _, w⟩
  · dsimp only
    rw [if_neg Bool.false_ne_true]
    split
    · rfl
    · cases horizon with
      | zero => rfl
      | succ more =>
        change _ = Flow.andThen _ _ w
        unfold Flow.andThen
        rcases ins.pause s.period w with ⟨_ | _ | _, w⟩ <;> rfl
  · rfl
  · rfl
  · rfl

/-- What is wrong with how to wait, if anything is. The time allowed is looked at first. -/
def Settings.flaw? (s : Settings Float) : Option Fault :=
  if s.timeout ≤ 0 then
    some (.badValue s!"timeout must be positive, got {Decimal.text s.timeout}")
  else if s.period ≤ 0 then
    some (.badValue s!"period must be positive, got {Decimal.text s.period}")
  else none

section Flaw

variable (env : Surroundings σ) {s : Settings Float} (check : Flow (World σ) Bool) (horizon : Nat)
  (w : World σ)

/-- A wait with a flaw says so, and does nothing else. -/
lemma poll_of_flaw {f : Fault} (h : s.flaw? = some f) :
    World.poll env s check horizon w = (.raised f, w) := by
  unfold Settings.flaw? at h
  unfold World.poll poll
  split at h
  · next ht => rw [if_pos ht, ← Option.some.inj h]; rfl
  · next ht =>
    split at h
    · next hp => rw [if_neg ht, if_pos hp, ← Option.some.inj h]; rfl
    · exact absurd h (by simp)

/-- A wait without a flaw starts with its first attempt. -/
lemma poll_of_flawless (h : s.flaw? = none) :
    World.poll env s check horizon w =
      pollFrom (World.instruments env s.label) s check w.now horizon 0 w := by
  unfold Settings.flaw? at h
  unfold World.poll poll
  split at h
  · exact absurd h (by simp)
  · next ht =>
    split at h
    · exact absurd h (by simp)
    · next hp => rw [if_neg ht, if_neg hp]; rfl

end Flaw

/-- The settings of a wait have no flaw if and only if they allow it some time, and some pause. -/
lemma flaw?_eq_none_iff {s : Settings Float} :
    s.flaw? = none ↔ ¬ s.timeout ≤ 0 ∧ ¬ s.period ≤ 0 := by
  unfold Settings.flaw?
  split
  · next ht => simp [ht]
  · next ht => split <;> simp_all

/-- A wait whose first attempt passes is over. -/
lemma poll_of_passed (env : Surroundings σ) {s : Settings Float} {check : Flow (World σ) Bool}
    (hbounds : ¬ s.timeout ≤ 0 ∧ ¬ s.period ≤ 0) (horizon : Nat) {w w₁ : World σ}
    (hcheck : check w = (.returned true, w₁)) :
    ∃ o w₂, World.poll env s check horizon w = (.returned o, w₂) ∧ o.ready = true ∧
      w₂.history = w₁.history := by
  unfold World.poll poll pollFrom attempt
  rw [if_neg hbounds.1, if_neg hbounds.2, hcheck]
  exact ⟨_, _, rfl, rfl, rfl⟩

/-- The invariants of a wait: `R` before an attempt and `Q` after one that did not pass, for so many
attempts, the happenings so far, and what the flow has in mind; and `P` at the end. -/
structure Keeps (s : Settings Float) (check : Flow (World σ) Bool)
    (R Q : Nat → List Happening → World.Mind → Prop) (P : Flow.Condition (Outcome Float)) :
    Prop where
  attempt : ∀ n tr m, R n tr m → check.Meets m fun tr' e m' =>
    match e with
    | .returned true => ∀ t, P (tr ++ tr') (.returned ⟨true, n + 1, t⟩) m'
    | .returned false => Q (n + 1) (tr ++ tr') m'
    | .raised f =>
      if s.forgives f then Q (n + 1) (tr ++ tr') m' else P (tr ++ tr') (.raised f) m'
    | .unfinished => P (tr ++ tr') .unfinished m'
  late : ∀ n tr m t, Q n tr m → P tr (.returned ⟨false, n, t⟩) m
  /-- The observation may end after an attempt that did not pass. -/
  cease : ∀ n tr m, Q n tr m → P tr .unfinished m
  pause : ∀ n tr m, Q n tr m → R n (tr ++ [.paused s.period none]) m
  cut : ∀ n tr m f, Q n tr m → P (tr ++ [.paused s.period (some f)]) (.raised f) m

namespace Keeps

variable {s : Settings Float} {check : Flow (World σ) Bool}
  {R Q : Nat → List Happening → World.Mind → Prop} {P : Flow.Condition (Outcome Float)}
  (env : Surroundings σ)

/-- An attempt of a wait: a note is made of one that does not pass.

**Proof sketch.** The condition of the check says what holds when the check ends. What the attempt
makes of it depends on whether it passed, and whether its fault is forgiven. -/
lemma meets_attempt (H : Keeps s check R Q P) {n : Nat} {tr : List Happening} {m : World.Mind}
    (hr : R n tr m) :
    (Poll.attempt (World.instruments env s.label) s check (n + 1)).Meets m fun tr' e m' =>
      match e with
      | .returned true => ∀ t, P (tr ++ tr') (.returned ⟨true, n + 1, t⟩) m'
      | .returned false => Q (n + 1) (tr ++ tr') m'
      | .raised f => P (tr ++ tr') (.raised f) m'
      | .unfinished => P (tr ++ tr') .unfinished m' := by
  intro w hw
  obtain ⟨tr', htr, hp⟩ := H.attempt n tr m hr w hw
  unfold Poll.attempt
  rcases hc : check w with ⟨(_ | _) | f | _, w'⟩
  · rw [hc] at htr hp
    exact ⟨tr', htr, hp⟩
  · rw [hc] at htr hp
    exact ⟨tr', htr, hp⟩
  · rw [hc] at htr hp
    by_cases hf : s.forgives f
    · simp only [hf, if_true] at hp ⊢
      exact ⟨tr', htr, hp⟩
    · simp only [hf] at hp ⊢
      exact ⟨tr', htr, hp⟩
  · rw [hc] at htr hp
    exact ⟨tr', htr, hp⟩

/-- The note on how a wait ended is of no account. -/
lemma meets_conclude {ready : Bool} {n : Nat} {started : Float} {tr : List Happening}
    {m : World.Mind} (h : ∀ t, P tr (.returned ⟨ready, n, t⟩) m) :
    (conclude (World.instruments env s.label) s ready n started).Meets m
      fun tr' => P (tr ++ tr') := by
  rintro w rfl
  refine ⟨[], (List.append_nil _).symm, ?_⟩
  show P (tr ++ []) (.returned ⟨ready, n, w.now - started⟩) w.mind
  rw [List.append_nil]
  exact h _

/-- The pause after an attempt that did not pass, and what follows it. -/
lemma meets_pause (H : Keeps s check R Q P) {n : Nat} {tr : List Happening} {m : World.Mind}
    (hq : Q n tr m) {rest : Flow (World σ) (Outcome Float)}
    (hrest : ∀ tr' m', R n tr' m' → rest.Meets m' fun tr'' => P (tr' ++ tr'')) :
    ((World.pause env s.period) >>= fun _ => rest).Meets m fun tr' => P (tr ++ tr') := by
  refine Flow.Meets.bind (Flow.Meets.pause ?_ fun f => H.cut n tr m f hq)
  refine (hrest _ m (H.pause n tr m hq)).mono fun tr' e m' hp => ?_
  rwa [← List.append_assoc]

/-- An attempt, and what it leads to.

**Proof sketch.** The attempt meets what `meets_attempt` says. If it passed, or if the time is up,
the wait concludes; if not, the rest goes on from what holds after an attempt that did not pass. -/
lemma meets_rest (H : Keeps s check R Q P) (started : Float) {n : Nat} {tr : List Happening}
    {m : World.Mind} (hr : R n tr m) {rest : Flow (World σ) (Outcome Float)}
    (hrest : ∀ tr' m', Q (n + 1) tr' m' → rest.Meets m' fun tr'' => P (tr' ++ tr'')) :
    (Poll.attempt (World.instruments env s.label) s check (n + 1) >>= fun passed w =>
      if passed then conclude (World.instruments env s.label) s true (n + 1) started w
      else if s.timeout ≤ (World.instruments env s.label).now w - started then
        conclude (World.instruments env s.label) s false (n + 1) started w
      else rest w).Meets m fun tr' => P (tr ++ tr') := by
  refine Flow.Meets.bind ((H.meets_attempt env hr).mono fun tr' e m' hp => ?_)
  simp only [← List.append_assoc]
  cases e with
  | returned passed =>
    cases passed with
    | true => exact meets_conclude env hp
    | false =>
      intro w hw
      dsimp only
      rw [if_neg Bool.false_ne_true]
      split
      · exact meets_conclude env (fun t => H.late _ _ _ t hp) w hw
      · exact hrest _ _ hp w hw
  | raised f => exact hp
  | unfinished => exact hp

/-- **A wait after some attempts** meets what its invariants say.

**Proof sketch.** By induction on the pauses that are observed: an attempt that does not pass is
followed by the end of the wait, or by a pause and a wait with one pause less. -/
theorem meets_pollFrom (H : Keeps s check R Q P) (started : Float) (horizon n : Nat)
    {tr : List Happening} {m : World.Mind} (hr : R n tr m) :
    (pollFrom (World.instruments env s.label) s check started horizon n).Meets m
      fun tr' => P (tr ++ tr') := by
  induction horizon generalizing n tr m with
  | zero =>
    rw [pollFrom_eq]
    refine H.meets_rest env started hr fun tr' m' hq w hw => ⟨[], by simp, ?_⟩
    rw [← hw] at hq
    simpa using H.cease _ _ _ hq
  | succ horizon ih =>
    rw [pollFrom_eq]
    exact H.meets_rest env started hr fun tr' m' hq =>
      H.meets_pause env hq fun tr'' m'' hr' => ih (n + 1) hr'

/-- **A wait** meets what its invariants say, if it is allowed some time and pauses at all. -/
theorem meets_poll (H : Keeps s check R Q P) (horizon : Nat) {m : World.Mind} (hr : R 0 [] m)
    (hbad : s.timeout ≤ 0 ∨ s.period ≤ 0 → ∀ text, P [] (.raised (.badValue text)) m) :
    (World.poll env s check horizon).Meets m P := by
  intro w hw
  unfold World.poll poll
  split
  · next ht => exact ⟨[], by simp, hw ▸ hbad (Or.inl ht) _⟩
  · split
    · next hp => exact ⟨[], by simp, hw ▸ hbad (Or.inr hp) _⟩
    · exact H.meets_pollFrom env _ horizon 0 hr w hw

end Keeps

/-- A wait goes through pauses and what its attempts go through, and nothing else; what all of these
leave alone it leaves alone.

**Proof sketch.** What is kept all along is that the view has not changed, and that all happenings
so far have the property. Checks and pauses keep it by assumption, and all ways to end allow it. -/
lemma meets_poll_forall (env : Surroundings σ) (s : Settings Float)
    {check : Flow (World σ) Bool} {p : Happening → Prop} {β : Type} (view : World.Mind → β)
    (hpause : ∀ cut, p (.paused s.period cut))
    (hcheck : ∀ m, check.Meets m fun tr _ m' => view m' = view m ∧ ∀ h ∈ tr, p h) (horizon : Nat)
    (m : World.Mind) :
    (World.poll env s check horizon).Meets m fun tr _ m' =>
      view m' = view m ∧ ∀ h ∈ tr, p h := by
  let Fine (tr : List Happening) (m' : World.Mind) : Prop := view m' = view m ∧ ∀ h ∈ tr, p h
  have happend {tr tr' : List Happening} {m₁ m₂ : World.Mind} (H : Fine tr m₁)
      (H' : view m₂ = view m₁ ∧ ∀ h ∈ tr', p h) : Fine (tr ++ tr') m₂ :=
    ⟨H'.1.trans H.1, fun x hx => (List.mem_append.1 hx).elim (H.2 x) (H'.2 x)⟩
  have hkeeps : Keeps s check (fun _ => Fine) (fun _ => Fine) (fun tr _ => Fine tr) := {
    attempt := fun n tr m' H => (hcheck m').mono fun tr' e m'' H' => by
      rcases e with (_ | _) | f | _
      · exact happend H H'
      · exact fun _ => happend H H'
      · dsimp only
        split <;> exact happend H H'
      · exact happend H H'
    late := fun _ _ _ _ H => H
    cease := fun _ _ _ H => H
    pause := fun _ _ _ H => happend H ⟨rfl, by simpa using hpause none⟩
    cut := fun _ _ _ f H => happend H ⟨rfl, by simpa using hpause (some f)⟩ }
  exact hkeeps.meets_poll env horizon ⟨rfl, by simp⟩ fun _ _ => ⟨rfl, by simp⟩

/-- Whatever a wait comes to, the history only grows. -/
lemma meets_poll_any (env : Surroundings σ) (s : Settings Float) {check : Flow (World σ) Bool}
    (hcheck : ∀ m, check.Meets m fun _ _ _ => True) (horizon : Nat) (m : World.Mind) :
    (World.poll env s check horizon).Meets m fun _ _ _ => True := by
  refine (meets_poll_forall env s (p := fun _ => True) (fun _ => ()) (fun _ => trivial)
    (fun m => ?_) horizon m).mono fun _ _ _ _ => trivial
  exact (hcheck m).mono fun _ _ _ _ => ⟨rfl, fun _ _ => trivial⟩

end NodeKeeper.Poll
