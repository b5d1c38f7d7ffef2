import NodeKeeper.Proofs.Cache.Protocol

/-!
# How long a key stands at a value

A key stands at what was put until something else is put, until it is dropped, or until its
lifetime is over. No load can come in between: those that were on the way were superseded, and none
is started as long as the value shows.

## Main results

* `Cache.Sound.standing_step` — a step that supersedes nothing leaves a living value standing.
* `Cache.Sound.standing_course` — so does a course, if the value still lives in the end.
-/

namespace NodeKeeper.Cache

variable {κ ν τ : Type} [DecidableEq κ] [Add τ] [LE τ] [DecidableLE τ]
  {b b' : Ledger κ ν τ} {h es : History κ ν τ} {k : κ} {v : ν} {t : τ}

/-- The clock is not turned back in a step. -/
lemma Step.now_le (hs : Step b es b') : b.now = b'.now ∨ b.now ≤ b'.now := by
  cases hs with
  | elapse hle => exact hle
  | _ => exact Or.inl rfl

/-- What lives after a step has lived before. -/
lemma Step.alive [IsTrans τ (· ≤ ·)] (hs : Step b es b')
    (hlive : alive b'.cache.ttl b'.now t = true) : Cache.alive b.cache.ttl b.now t = true := by
  rw [hs.ttl_eq] at hlive
  by_contra hdead
  rw [alive_eq_false_of_le hs.now_le (by simpa using hdead)] at hlive
  exact absurd hlive (by simp)

/-- A key that stands at a living value shows it. -/
lemma shown_of_standing (hst : standing k h = some (v, t)) {ttl : Option τ} {now : τ}
    (hlive : alive ttl now t = true) : shown ttl now k h = some v := by
  rw [shown, hst, Option.bind_some, if_pos hlive]

namespace Sound

/-- A load of a key that shows something was superseded. -/
lemma unsuperseded_eq_false (H : Sound b h) {l : Nat} (hl : b.flights[l]? = some ⟨k, false⟩)
    (hv : shown b.cache.ttl b.now k h = some v) : unsuperseded l k h = false := by
  obtain ⟨load, hm, rfl, rfl⟩ := (H.mem_loads_iff l k).2 hl
  by_contra hu
  have hcurrent := (H.tells.current_iff load hm).2 (by simpa using hu)
  exact absurd (hv.symm.trans (H.tells.shown_eq_none hm hcurrent)) (by simp)

/-- **One step** leaves a key at the value that it stands at, unless the key is superseded, or the
value does not live any more.

**Proof sketch.** Beside what supersedes the key, only a load of it could install something. But the
key shows its value, so that its loads were superseded before. -/
theorem standing_step [IsTrans τ (· ≤ ·)] (H : Sound b h) (hs : Step b es b')
    (hst : standing k h = some (v, t)) (hlive : alive b'.cache.ttl b'.now t = true)
    (hsup : ∀ e ∈ es, e.supersedes k = false) : standing k (es ++ h) = some (v, t) := by
  have hshown := shown_of_standing hst (hs.alive hlive)
  cases hs with
  | elapse _ | lookup _ | keys => exact hst
  | put j w | drop j =>
    have hj : j ≠ k := by simpa [Event.supersedes] using hsup _ (List.mem_singleton_self _)
    simpa [standing, hj] using hst
  | dropAll => exact absurd (hsup _ (List.mem_singleton_self _)) (by simp [Event.supersedes])
  | ask _ | start _ _ => exact hst
  | @land l j ha value =>
    cases value with
    | none => exact hst
    | some w =>
      have hlate : ¬ (j = k ∧ unsuperseded l k h = true) := by
        rintro ⟨rfl, hu⟩
        rw [H.unsuperseded_eq_false ha hshown] at hu
        exact absurd hu (by simp)
      rw [List.singleton_append, standing, if_neg hlate]
      exact hst

/-- **Every course** leaves a key at the value that it stands at, unless the key is superseded, or
the value does not live any more in the end. -/
theorem standing_course [IsTrans τ (· ≤ ·)] (H : Sound b h) (hc : Course b es b')
    (hst : standing k h = some (v, t)) (hlive : alive b'.cache.ttl b'.now t = true)
    (hsup : ∀ e ∈ es, e.supersedes k = false) : standing k (es ++ h) = some (v, t) := by
  induction hc with
  | refl => exact hst
  | @step older es b' b'' hc hs ih =>
    rw [List.append_assoc]
    refine (H.course hc).standing_step hs ?_ hlive fun e he =>
      hsup e (List.mem_append_left _ he)
    exact ih (hs.alive hlive) fun e he => hsup e (List.mem_append_right _ he)

end Sound

end NodeKeeper.Cache
