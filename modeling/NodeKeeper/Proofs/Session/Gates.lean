import NodeKeeper.Proofs.Session.Calls
import NodeKeeper.Proofs.Session.Callers

/-!
# Gates

Who has to wait for an answer from outside waits at a gate. A gate that opens frees those who wait
there, and nobody else; then nobody waits there any more.

## Main definitions

* `Session.waitingAt` — who waits at a gate.

## Main results

* `Session.waitingAt_await`, `Session.waitingAt_release` — who waits at a gate once somebody has
  come to wait, and once a gate has opened.
* `Session.release_eq`, `Session.release_of_waiting` — a gate that opens frees all who wait there.
* `Session.callers_release_of_not_mem`, `Session.flights_release_of_not_mem` — it moves nobody else.

## Implementation notes

A session keeps its gates in a list, and a gate that nobody waits at may be on it or not. That is
why they are compared by who waits at them, and not as lists.
-/

namespace NodeKeeper.Session

variable {σ κ ν τ α φ δ : Type}

/-- Who waits at a gate. -/
def waitingAt (s : Session σ κ ν τ α φ δ) (gate : String) : List Task :=
  (s.gates.lookup gate).getD []

/-- A gate is found in a list of gates from which others were taken out, and not any more once it
was taken out itself.

**Proof sketch.** Induction on the list. A gate that is taken out is the one that is looked for, or
it is none that would have been found. -/
lemma lookup_filter_ne (gates : List (String × List Task)) (name gate : String) :
    (gates.filter fun p => p.1 ≠ name).lookup gate =
      if gate = name then none else gates.lookup gate := by
  induction gates with
  | nil => simp
  | cons p gates ih =>
    obtain ⟨other, ts⟩ := p
    by_cases ho : other = name
    · subst ho
      rw [List.filter_cons_of_neg (by simp), ih, List.lookup_cons]
      by_cases hg : gate = other
      · simp [hg]
      · simp [hg, beq_false_of_ne hg]
    · rw [List.filter_cons_of_pos (by simpa using ho), List.lookup_cons, List.lookup_cons, ih]
      by_cases hg : gate = other
      · subst hg
        simp [ho]
      · simp [beq_false_of_ne hg]

/-- At a gate that is closed nobody waits any more, and at the others whoever waited there
before. -/
lemma waitingAt_filter_ne (s : Session σ κ ν τ α φ δ) (name gate : String) :
    { s with gates := s.gates.filter fun p => p.1 ≠ name }.waitingAt gate =
      if gate = name then [] else s.waitingAt gate := by
  rw [waitingAt, lookup_filter_ne]
  split <;> rfl

/-- Who comes to wait at a gate is the last one there, and the other gates are as they were. -/
lemma waitingAt_await (s : Session σ κ ν τ α φ δ) (name gate : String) (t : Task) :
    (s.await name t).waitingAt gate =
      if gate = name then s.waitingAt name ++ [t] else s.waitingAt gate := by
  simp only [waitingAt, await, List.lookup_cons, lookup_filter_ne]
  by_cases hg : gate = name
  · simp [hg]
  · simp [hg, beq_false_of_ne hg]

/-- A gate that opens frees all who wait there.

**Proof sketch.** If nobody waits, the gate is not on the list, so that to take it off changes
nothing. -/
lemma release_eq (s : Session σ κ ν τ α φ δ) (gate : String) (a : Answer κ ν τ α) :
    (s.release gate a).2 = (s.waitingAt gate).foldl (free a)
      { s with gates := s.gates.filter fun p => p.1 ≠ gate } := by
  rw [release, waitingAt]
  cases hgate : s.gates.lookup gate with
  | some waiting => rfl
  | none =>
    have hkeep : s.gates.filter (fun p => p.1 ≠ gate) = s.gates := by
      rw [List.filter_eq_self]
      intro p hp
      have hne : (gate != p.1) = true := List.lookup_eq_none_iff.1 hgate p hp
      simpa using Ne.symm (bne_iff_ne.1 hne)
    rw [hkeep]
    rfl

/-- What holds once a gate is closed, and is kept when one of those is freed who waited there, holds
once the gate has opened. -/
lemma release_of_waiting {P : Session σ κ ν τ α φ δ → Prop} {s : Session σ κ ν τ α φ δ}
    {gate : String} {a : Answer κ ν τ α}
    (hclosed : P { s with gates := s.gates.filter fun p => p.1 ≠ gate })
    (hfree : ∀ s', ∀ t ∈ s.waitingAt gate, P s' → P (free a s' t)) : P (s.release gate a).2 := by
  rw [release_eq]
  exact List.foldlRecOn _ _ hclosed fun s' hs' t ht => hfree s' t ht hs'

/-- Who is freed leaves the gates as they are: the gate was closed before. -/
lemma gates_free (a : Answer κ ν τ α) (s : Session σ κ ν τ α φ δ) (t : Task) :
    (free a s t).gates = s.gates := by
  cases t with
  | caller c | load l =>
    simp only [free]
    split <;> rfl
  | deliver l c => rfl

/-- Who is cancelled is not taken away from its gate. -/
lemma gates_cancel (s : Session σ κ ν τ α φ δ) (c : Nat) : (s.cancel c).2.gates = s.gates := by
  unfold cancel
  split <;> rfl

/-- A gate that has opened is closed behind those who waited there. -/
lemma waitingAt_release (s : Session σ κ ν τ α φ δ) (gate other : String) (a : Answer κ ν τ α) :
    (s.release gate a).2.waitingAt other = if other = gate then [] else s.waitingAt other := by
  refine release_of_waiting (P := fun s' => s'.waitingAt other = _)
    (waitingAt_filter_ne s gate other) fun s' t _ hs' => ?_
  rwa [waitingAt, gates_free]

/-! ## Who is freed -/

/-- A gate that opens moves no caller that does not wait there.

**Proof sketch.** To release a gate frees only those who wait there, one after the other, and to
free one of them touches no other caller. -/
lemma callers_release_of_not_mem {s : Session σ κ ν τ α φ δ} {gate : String} {c : Nat}
    (h : .caller c ∉ s.waitingAt gate) (a : Answer κ ν τ α) :
    (s.release gate a).2.callers[c]? = s.callers[c]? := by
  refine release_of_waiting (P := fun s' => s'.callers[c]? = s.callers[c]?) rfl ?_
  intro s' t ht hs'
  rw [← hs']
  cases t with
  | caller d =>
    have hne : d ≠ c := fun hd => h (hd ▸ ht)
    simp only [free]
    split
    · exact callers_setCaller_ne hne _
    · rfl
  | load l =>
    simp only [free]
    split <;> rfl
  | deliver l d => rfl

/-- A gate that opens moves no load that does not wait there.

**Proof sketch.** As for callers: only those who wait at the gate are freed, and to free one of them
touches no other load. -/
lemma flights_release_of_not_mem {s : Session σ κ ν τ α φ δ} {gate : String} {l : Nat}
    (h : .load l ∉ s.waitingAt gate) (a : Answer κ ν τ α) :
    (s.release gate a).2.flights[l]? = s.flights[l]? := by
  refine release_of_waiting (P := fun s' => s'.flights[l]? = s.flights[l]?) rfl ?_
  intro s' t ht hs'
  rw [← hs']
  cases t with
  | load m =>
    have hne : m ≠ l := fun hm => h (hm ▸ ht)
    simp only [free]
    split
    · exact flights_setProgress_ne hne _
    · rfl
  | caller c =>
    simp only [free]
    split <;> rfl
  | deliver m c => rfl

end NodeKeeper.Session
