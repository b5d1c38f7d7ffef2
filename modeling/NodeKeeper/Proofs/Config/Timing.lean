import NodeKeeper.Proofs.Config.Fields
import NodeKeeper.Proofs.Decimal.Rounding
import NodeKeeper.Proofs.Fault.Kinds

/-!
# What a configuration says about waiting

A configuration that was read without a problem keeps the bounds of its settings, whether they were
given or not. Seconds of waiting are above what the flows ask for.

## Main definitions

* `Config.Timing.Valid` — time to wait and pause are above their bounds.

## Main results

* `Config.Settings.valid_of_read` — the timings of a configuration that was read.
* `Config.Timing.Valid.seconds` — their seconds.
-/

namespace NodeKeeper.Config

/-! ## Timings -/

/-- Time to wait and pause are above their bounds. -/
structure Timing.Valid (t : Timing) : Prop where
  timeout : 500 < t.timeout
  period : 500 ≤ t.period

/-- An integer that was read as one above a bound is above it. -/
lemma lt_of_integerAbove {bound n : Int} {v : Value} (h : Setting.integerAbove bound v = .ok n) :
    bound < n := by
  obtain ⟨m, -, h⟩ := exists_of_bind_eq_ok h
  split at h
  · next hlt => exact Except.ok.inj h ▸ hlt
  · exact absurd h (by simp)

/-- An integer that was read as one of at least a bound is not below it. -/
lemma le_of_integerAtLeast {bound n : Int} {v : Value}
    (h : Setting.integerAtLeast bound v = .ok n) : bound ≤ n := by
  obtain ⟨m, -, h⟩ := exists_of_bind_eq_ok h
  split at h
  · next hle => exact Except.ok.inj h ▸ hle
  · exact absurd h (by simp)

/-- A section that was read keeps the bounds if its defaults do.

**Proof sketch.** Each of the two numbers is its default, which is fine, or one that was read, and
reading checks the bound. -/
lemma Timing.valid_of_read {title timeoutName : String} {fallback t : Timing} {v : Value}
    (h : Timing.read title timeoutName fallback v = .ok t) (hf : fallback.Valid) : t.Valid := by
  obtain ⟨fs, -, hfields⟩ := fieldwise title timeoutName fallback v t h
  obtain ⟨htimeout, hperiod, -⟩ : _ ∧ _ ∧ _ := by
    simpa only [declared, List.forall_mem_cons] using hfields
  constructor
  · rcases Field.eq_or_exists_of_plain (a := t.timeout) htimeout with heq | ⟨_, hread⟩
    · exact heq ▸ hf.timeout
    · exact lt_of_integerAbove hread
  · rcases Field.eq_or_exists_of_plain (a := t.period) hperiod with heq | ⟨_, hread⟩
    · exact heq ▸ hf.period
    · exact le_of_integerAtLeast hread

/-- So does one that may be missing. -/
lemma Timing.valid_of_own {σ : Type} {name title timeoutName : String} {fallback t : Timing}
    {get : σ → Timing} {v? : Option Value}
    (h : (Field.mk name (some fallback) (Timing.read title timeoutName fallback) get).own v? =
      .ok t)
    (hf : fallback.Valid) : t.Valid := by
  rcases Field.eq_or_exists_of_own rfl h with heq | ⟨_, hread⟩
  · exact heq ▸ hf
  · exact valid_of_read hread hf

/-- **A configuration that was read** has timings that keep their bounds. -/
theorem Settings.valid_of_read {v : Value} {s : Settings} (h : Settings.read v = .ok s) :
    s.provision.Valid ∧ s.teardown.Valid ∧ s.image.Valid := by
  obtain ⟨fs, -, hfields⟩ := fieldwise v s h
  obtain ⟨-, hprovision, hteardown, himage, -⟩ : _ ∧ _ ∧ _ ∧ _ ∧ _ := by
    simpa only [declared, List.forall_mem_cons] using hfields
  exact ⟨Timing.valid_of_own hprovision ⟨by decide, by decide⟩,
    Timing.valid_of_own hteardown ⟨by decide, by decide⟩,
    Timing.valid_of_own himage ⟨by decide, by decide⟩⟩

/-- **Seconds**: the time to wait is more than half a second, and both are positive.

**Proof sketch.** Rounding to floats is monotone, so the bounds in thousandths become bounds in
seconds. -/
theorem Timing.Valid.seconds {t : Timing} (h : t.Valid) {timeout period : Float}
    (hs : t.seconds = .ok (timeout, period)) :
    ¬ timeout ≤ 0.5 ∧ ¬ timeout ≤ 0 ∧ ¬ period ≤ 0 := by
  have hfinite {n : Int} {x : Float} (hx : secondsOf n = .ok x) :
      Decimal.thousandths? n = some x := by
    unfold secondsOf at hx
    split at hx
    · next hn => exact hn.trans (congrArg some (Except.ok.inj hx))
    · exact absurd hx (by simp)
  obtain ⟨a, ht, hs⟩ := exists_of_bind_eq_ok hs
  obtain ⟨b, hp, hs⟩ := exists_of_bind_eq_ok hs
  obtain ⟨rfl, rfl⟩ := Prod.mk.inj (Except.ok.inj hs)
  have htimeout := Decimal.not_le_of_thousandths? (hfinite ht) h.timeout.le
  have hperiod := Decimal.not_le_of_thousandths? (hfinite hp) h.period
  exact ⟨htimeout.2 h.timeout, htimeout.1, hperiod.1⟩

end NodeKeeper.Config
