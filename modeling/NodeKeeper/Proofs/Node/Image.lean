import NodeKeeper.Node.Image
import NodeKeeper.Proofs.Decimal.Order
import NodeKeeper.Proofs.Flow.Waiting
import NodeKeeper.Proofs.Node.Happenings
import NodeKeeper.Provider.Scripted

/-!
# The outcome of the making of an image

A node is cloned, and the image is read again and again until the wait is over. An image that can be
used is returned with the state that showed so: unlike a node, it is not read once more. An image
that does not get available in time is deleted, and all that counts of the deletion is whether it
failed. An image whose wait was ended by a fault is left as it is.

## Main definitions

* `Imager.answer` — what a read comes to for a check.
* `Imager.NotYet` — a read after which the wait goes on unless the time is up.
* `Imager.Waited` — what a wait for an image goes through, and how it ends.
* `Imager.Closes` — what follows the wait.

## Main results

* `Imager.meets_wait` — what a wait for an image goes through, for any settings.
* `Imager.image_outcome` — the calls of the making of an image, and how it ends.

## Implementation notes

As with nodes, the wait is not only specified but also named in the main result, since its ending
decides what follows it.
-/

namespace NodeKeeper.Imager

open NodeKeeper.Flow (Meets)

variable {σ : Type} {p : Imager} {env : Surroundings σ} {id : String} {m : World.Mind}

/-- How to wait for an image. -/
def settings (p : Imager) (handle : Handle) : Poll.Settings Float :=
  ⟨p.period, p.timeout, p.transient, s!"image:{handle.id}"⟩

/-- What is read shows that the image can be used. -/
def IsUsable (p : Imager) (v : Value) : Prop := v.isNull = false ∧ p.isAvailable v = .ok true

/-- What a read comes to for a check. -/
def answer (p : Imager) : Except Fault Value → Except Fault Bool
  | .ok v => if v.isNull then .ok false else p.isAvailable v
  | .error f => .error f

/-- After the read the wait goes on, unless the time is up: it does not show that the image can be
used, and a fault counts as "not yet". -/
def NotYet (p : Imager) (s : Poll.Settings Float) (out : Except Fault Value) : Prop :=
  p.answer out = .ok false ∨ ∃ f, p.answer out = .error f ∧ s.forgives f = true

/-- An image counts as usable after a call if and only if the call has returned a state that says
so. -/
lemma answer_eq_ok_true_iff {out : Except Fault Value} :
    p.answer out = .ok true ↔ ∃ v, out = .ok v ∧ p.IsUsable v := by
  cases out with
  | error f => simp [answer]
  | ok v => cases hv : v.isNull <;> simp [answer, IsUsable, hv]

/-- An image that is not usable yet is not usable. -/
lemma NotYet.not_usable {s : Poll.Settings Float} {v : Value} (h : p.NotYet s (.ok v)) :
    ¬ p.IsUsable v := by
  intro hv
  have hanswer : p.answer (.ok v) = .ok true := answer_eq_ok_true_iff.2 ⟨v, rfl, hv⟩
  rcases h with hno | ⟨f, hf, -⟩
  · exact absurd (hno.symm.trans hanswer) (by simp)
  · exact absurd (hf.symm.trans hanswer) (by simp)

/-- A call that ends with a fault that is forgiven leaves the image not usable yet. -/
lemma NotYet.of_forgiven {s : Poll.Settings Float} {out : Except Fault Value} {f : Fault}
    (h : p.answer out = .error f) (hf : s.forgives f = true) : p.NotYet s out :=
  Or.inr ⟨f, h, hf⟩

/-- A fault with which the image is not usable yet is one that is forgiven. -/
lemma NotYet.forgives {s : Poll.Settings Float} {out : Except Fault Value} (h : p.NotYet s out)
    {f : Fault} (hf : p.answer out = .error f) : s.forgives f = true := by
  rcases h with hno | ⟨g, hg, hforgives⟩
  · exact absurd (hno.symm.trans hf) (by simp)
  · obtain rfl := Except.error.inj (hg.symm.trans hf)
    exact hforgives

/-! ## Cloning -/

/-- How a failed creation is reported: faults of lifecycle flows and those that cannot be handled
stay what they are. -/
def refusal (source name : String) (f : Fault) : Fault :=
  if f.isLifecycle || !f.isOrdinary then f
  else .causedBy (.lifecycle .createFailed
    s!"Failed to clone {source} into image {name}: {f.message}" { resource := .text source }) f

/-- Cloning takes one call.

**Proof sketch.** Nothing but the clone is called for. A fault is passed on or wrapped as `refusal`
says. -/
lemma meets_clone (env : Surroundings σ) (source name : String) (bound : List (String × Value))
    (m : World.Mind) :
    (clone env source name bound).Meets m fun tr e _ =>
      ∃ created, tr = [.called (.createImage source name) created] ∧
        match created with
        | .ok handle => e = .returned handle
        | .error f => e = .raised (refusal source name f) := by
  unfold clone
  refine Meets.attempt_bind fun created => ?_
  cases created with
  | ok handle => exact Meets.pure ⟨.ok handle, rfl, rfl⟩
  | error f =>
    dsimp only
    split
    · next hf => exact Meets.raise ⟨.error f, rfl, congrArg Ending.raised (if_pos hf).symm⟩
    · next hf =>
      exact Meets.note_bind (Meets.raise ⟨.error f, rfl, congrArg Ending.raised (if_neg hf).symm⟩)

/-! ## Waiting -/

/-- One check reads the image once. Whatever is read becomes the last state.

**Proof sketch.** The call fails, or finds nothing, or finds a state on which the predicate is
asked; this is the split of `answer`. -/
lemma meets_availableCheck (p : Imager) (env : Surroundings σ) (id : String) (m : World.Mind) :
    (p.availableCheck env id).Meets m fun tr e m' => ∃ out, tr = [.called (.getImage id) out] ∧
      m'.seen = lastRead m.seen tr ∧
        match p.answer out with
        | .ok passed => e = .returned passed
        | .error f => e = .raised f := by
  unfold availableCheck
  refine Meets.perform_bind (fun v => Meets.see_bind ?_) fun f => ⟨.error f, rfl, rfl, rfl⟩
  split
  · next hn => exact Meets.pure ⟨.ok v, rfl, rfl, by simp [answer, hn]⟩
  · next hn =>
    refine Meets.ofExcept (fun passed hp => ⟨.ok v, rfl, rfl, ?_⟩) fun f hf => ⟨.ok v, rfl, rfl, ?_⟩
    · simp [answer, hn, hp]
    · simp [answer, hn, hf]

/-- Reads of an image, each of them followed by a pause. -/
def looks (p : Imager) (id : String) (reads : List (Except Fault Value)) : List Happening :=
  reads.flatMap fun out => [.called (.getImage id) out, .paused p.period none]

/-- One more look at the image is one more call, with a pause behind it. -/
lemma looks_concat (reads : List (Except Fault Value)) (out : Except Fault Value) :
    p.looks id (reads ++ [out]) =
      p.looks id reads ++ [.called (.getImage id) out] ++ [.paused p.period none] := by
  simp [looks]

/-- What a wait for an image goes through and how it ends, by its last read. All reads are followed
by a pause but the last one. -/
inductive Waited (p : Imager) (s : Poll.Settings Float) (id : String)
    (earlier : List (Except Fault Value)) (last : Except Fault Value) :
    List Happening → Ending (Poll.Outcome Float) → Prop
  | available (h : p.answer last = .ok true) (t : Float) :
    Waited p s id earlier last (p.looks id earlier ++ [.called (.getImage id) last])
      (.returned ⟨true, earlier.length + 1, t⟩)
  /-- The time is up. -/
  | late (h : p.NotYet s last) (t : Float) :
    Waited p s id earlier last (p.looks id earlier ++ [.called (.getImage id) last])
      (.returned ⟨false, earlier.length + 1, t⟩)
  | failed {f : Fault} (h : p.answer last = .error f) (hf : s.forgives f = false) :
    Waited p s id earlier last (p.looks id earlier ++ [.called (.getImage id) last]) (.raised f)
  /-- The pause that follows is cut short. -/
  | cut (h : p.NotYet s last) (f : Fault) :
    Waited p s id earlier last
      (p.looks id earlier ++ [.called (.getImage id) last] ++ [.paused p.period (some f)])
      (.raised f)
  /-- The wait is still going on. -/
  | unfinished (h : p.NotYet s last) :
    Waited p s id earlier last (p.looks id earlier ++ [.called (.getImage id) last]) .unfinished

/-- What holds of a wait before the read after some reads. -/
structure Ready (p : Imager) (s : Poll.Settings Float) (id : String) (m : World.Mind)
    (reads : List (Except Fault Value)) (tr : List Happening) (m' : World.Mind) : Prop where
  history : tr = p.looks id reads
  notYet : ∀ out ∈ reads, p.NotYet s out
  seen : m'.seen = lastRead m.seen tr

/-- How a wait for an image ends. -/
def Ended (p : Imager) (s : Poll.Settings Float) (id : String) (m : World.Mind)
    (tr : List Happening) (e : Ending (Poll.Outcome Float)) (m' : World.Mind) : Prop :=
  ∃ earlier last, p.Waited s id earlier last tr e ∧ (∀ out ∈ earlier, p.NotYet s out) ∧
    m'.seen = lastRead m.seen tr

/-- What holds after a read with which the wait is not over. -/
def Paused (p : Imager) (s : Poll.Settings Float) (id : String) (m : World.Mind) (n : ℕ)
    (tr : List Happening) (m' : World.Mind) : Prop :=
  ∃ earlier last, earlier.length + 1 = n ∧
    tr = p.looks id earlier ++ [.called (.getImage id) last] ∧
    (∀ out ∈ earlier, p.NotYet s out) ∧ p.NotYet s last ∧ m'.seen = lastRead m.seen tr

/-- The wait keeps what is known of an image that is not usable yet: there were so many looks at it,
with a pause behind each.

**Proof sketch.** A look whose answer is a usable image ends the wait as ready. Any other look adds
itself to those at an image that is not usable yet; faults that are forgiven count as such, and
others end the wait. -/
lemma keeps_ready {s : Poll.Settings Float} (hs : s.period = p.period) (m : World.Mind) :
    Poll.Keeps s (p.availableCheck env id)
      (fun n tr m' => ∃ reads, reads.length = n ∧ p.Ready s id m reads tr m')
      (p.Paused s id m) (p.Ended s id m) where
  attempt := by
    rintro n _ m₁ ⟨reads, rfl, rfl, hreads, hseen⟩
    refine (meets_availableCheck p env id m₁).mono ?_
    rintro _ e m₂ ⟨out, rfl, hread, hout⟩
    have hlast : m₂.seen = lastRead m.seen (p.looks id reads ++ [.called (.getImage id) out]) := by
      rw [hread, hseen, lastRead_append]
    have hpaused (h : p.NotYet s out) : p.Paused s id m (reads.length + 1)
        (p.looks id reads ++ [.called (.getImage id) out]) m₂ :=
      ⟨reads, out, rfl, rfl, hreads, h, hlast⟩
    cases hanswer : p.answer out with
    | ok passed =>
      rw [hanswer] at hout
      obtain rfl : e = .returned passed := hout
      cases passed with
      | true => exact fun t => ⟨reads, out, .available hanswer t, hreads, hlast⟩
      | false => exact hpaused (Or.inl hanswer)
    | error f =>
      rw [hanswer] at hout
      obtain rfl : e = .raised f := hout
      dsimp only
      split
      · next hf => exact hpaused (.of_forgiven hanswer hf)
      · next hf =>
        exact ⟨reads, out, .failed hanswer (Bool.eq_false_iff.2 hf), hreads, hlast⟩
  late := by
    rintro _ _ m' t ⟨earlier, last, rfl, rfl, hearlier, hlast, hseen⟩
    exact ⟨earlier, last, .late hlast t, hearlier, hseen⟩
  cease := by
    rintro _ _ m' ⟨earlier, last, rfl, rfl, hearlier, hlast, hseen⟩
    exact ⟨earlier, last, .unfinished hlast, hearlier, hseen⟩
  pause := by
    rintro _ _ m' ⟨earlier, last, rfl, rfl, hearlier, hlast, hseen⟩
    refine ⟨earlier ++ [last], by simp, by rw [hs, looks_concat], fun out hout => ?_, ?_⟩
    · rcases List.mem_append.1 hout with hout | hout
      · exact hearlier out hout
      · exact List.mem_singleton.1 hout ▸ hlast
    · exact hseen.trans (lastRead_append_of_none rfl).symm
  cut := by
    rintro _ _ m' f ⟨earlier, last, rfl, rfl, hearlier, hlast, hseen⟩
    rw [hs]
    exact ⟨earlier, last, .cut hlast f, hearlier, hseen.trans (lastRead_append_of_none rfl).symm⟩

/-- **A wait for an image** reads the image and does nothing else. -/
lemma meets_wait (p : Imager) (env : Surroundings σ) (handle : Handle)
    (hbounds : ¬ p.timeout ≤ 0 ∧ ¬ p.period ≤ 0) (horizon : Nat) (m : World.Mind) :
    (World.poll env (p.settings handle) (p.availableCheck env handle.id) horizon).Meets m
      (p.Ended (p.settings handle) handle.id m) :=
  (keeps_ready rfl m).meets_poll env horizon ⟨[], rfl, rfl, by simp, rfl⟩ fun h =>
    absurd h (not_or.2 hbounds)

namespace Waited

variable {s : Poll.Settings Float} {earlier : List (Except Fault Value)}
  {last : Except Fault Value} {waited : List Happening} {polled : Ending (Poll.Outcome Float)}

/-- How a wait for an image starts: with its reads. -/
lemma exists_eq (H : p.Waited s id earlier last waited polled) :
    ∃ rest, waited = p.looks id earlier ++ [.called (.getImage id) last] ++ rest ∧
      (rest = [] ∨ ∃ f, rest = [.paused p.period (some f)]) := by
  cases H with
  | available | late | failed | unfinished => exact ⟨[], by simp⟩
  | cut h f => exact ⟨[.paused p.period (some f)], by simp⟩

/-- Looking at an image calls for it each time, and for nothing else. -/
lemma calls_looks (reads : List (Except Fault Value)) :
    (p.looks id reads).filterMap Happening.call? = List.replicate reads.length (.getImage id) := by
  induction reads with
  | nil => rfl
  | cons out reads ih => exact congrArg (_ :: ·) ih

/-- A wait for an image calls for it as often as it looks at it, the last look included. -/
lemma calls (H : p.Waited s id earlier last waited polled) :
    waited.filterMap Happening.call? = List.replicate (earlier.length + 1) (.getImage id) := by
  obtain ⟨rest, rfl, hrest⟩ := H.exists_eq
  have hno : rest.filterMap Happening.call? = [] := by
    rcases hrest with rfl | ⟨f, rfl⟩ <;> rfl
  rw [List.filterMap_append, List.filterMap_append, calls_looks, hno, List.replicate_succ',
    List.append_nil]
  rfl

/-- What is read is one of the reads. -/
lemma mem_reads (H : p.Waited s id earlier last waited polled) {out : Except Fault Value}
    (hout : .called (.getImage id) out ∈ waited) : out ∈ earlier ∨ out = last := by
  obtain ⟨rest, rfl, hrest⟩ := H.exists_eq
  have hno : .called (.getImage id) out ∉ rest := by
    rcases hrest with rfl | ⟨f, rfl⟩ <;> simp
  simpa [looks, hno] using hout

/-- The last look is among the happenings of the wait. -/
lemma last_mem (H : p.Waited s id earlier last waited polled) :
    .called (.getImage id) last ∈ waited := by
  obtain ⟨rest, rfl, -⟩ := H.exists_eq
  simp

/-- A wait that comes to an end counts as many attempts as there were looks. -/
lemma attempts (H : p.Waited s id earlier last waited polled) {o : Poll.Outcome Float}
    (ho : polled = .returned o) : o.attempts = earlier.length + 1 := by
  cases H with
  | available | late =>
    obtain rfl := Ending.returned.inj ho
    rfl
  | failed | cut | unfinished => exact absurd ho (by simp)

/-- The image got available if and only if the last read shows that it can be used. -/
lemma ready_iff (H : p.Waited s id earlier last waited polled) :
    (∃ o, polled = .returned o ∧ o.ready = true) ↔ p.answer last = .ok true := by
  have hno (h : p.NotYet s last) : p.answer last ≠ .ok true := by
    intro hanswer
    obtain ⟨v, rfl, hv⟩ := answer_eq_ok_true_iff.1 hanswer
    exact h.not_usable hv
  cases H with
  | available h => exact ⟨fun _ => h, fun _ => ⟨_, rfl, rfl⟩⟩
  | late h | cut h | unfinished h => simpa using hno h
  | failed h => simp [h]

/-- One read shows that the image can be used if and only if the last one does. -/
lemma usable_iff (H : p.Waited s id earlier last waited polled)
    (hearlier : ∀ out ∈ earlier, p.NotYet s out) :
    (∃ v, .called (.getImage id) (.ok v) ∈ waited ∧ p.IsUsable v) ↔ p.answer last = .ok true := by
  rw [answer_eq_ok_true_iff]
  constructor
  · rintro ⟨v, hv, husable⟩
    rcases H.mem_reads hv with hmem | hlast
    · exact absurd husable (hearlier _ hmem).not_usable
    · exact ⟨v, hlast.symm, husable⟩
  · rintro ⟨v, rfl, husable⟩
    exact ⟨v, H.last_mem, husable⟩

/-- A fault that a read comes to ends the wait, unless it counts as "not yet".

**Proof sketch.** The fault was not forgiven, so that it is not among the reads that were passed
over. Then it is the last read, and the cases are those of the end of the wait. -/
lemma raised_of_error (H : p.Waited s id earlier last waited polled)
    (hearlier : ∀ out ∈ earlier, p.NotYet s out) {out : Except Fault Value} {f : Fault}
    (hout : .called (.getImage id) out ∈ waited) (hf : p.answer out = .error f)
    (hforgives : s.forgives f = false) : polled = .raised f := by
  have hno (h : p.NotYet s out) : polled = .raised f :=
    absurd ((h.forgives hf).symm.trans hforgives) (by simp)
  rcases H.mem_reads hout with hmem | rfl
  · exact hno (hearlier _ hmem)
  · cases H with
    | available h => exact absurd (h.symm.trans hf) (by simp)
    | late h | cut h | unfinished h => exact absurd ((h.forgives hf).symm.trans hforgives) (by simp)
    | failed h => rw [Except.error.inj (h.symm.trans hf)]

/-- The fault that ends a wait is one that a read came to, or one that cut a pause short. -/
lemma exists_of_raised {f : Fault} (H : p.Waited s id earlier last waited (.raised f)) :
    (∃ out, .called (.getImage id) out ∈ waited ∧ p.answer out = .error f ∧
      s.forgives f = false) ∨ .paused p.period (some f) ∈ waited := by
  cases H with
  | failed h hf => exact Or.inl ⟨last, by simp, h, hf⟩
  | cut h f => exact Or.inr (by simp)

/-- A wait that is over because the image got available ends with the read that shows so. -/
lemma exists_of_ready (H : p.Waited s id earlier last waited polled) {o : Poll.Outcome Float}
    (hpolled : polled = .returned o) (ho : o.ready = true) :
    ∃ before v, waited = before ++ [.called (.getImage id) (.ok v)] ∧ p.IsUsable v := by
  obtain ⟨v, rfl, hv⟩ := answer_eq_ok_true_iff.1 (H.ready_iff.1 ⟨o, hpolled, ho⟩)
  cases H with
  | available => exact ⟨_, v, rfl, hv⟩
  | late =>
    obtain rfl := Ending.returned.inj hpolled
    exact absurd ho Bool.false_ne_true
  | failed | cut | unfinished => exact absurd hpolled (by simp)

end Waited

/-! ## Taking back -/

/-- How an image that did not get available is taken back: by deleting it. The fault says how long
the wait took, what the last state is, and why the deletion failed, if it did. A fault of the
deletion that cannot be handled stays what it is. -/
def TakenBack (p : Imager) (id : String) (elapsed : Float) (seen : Value) (tr : List Happening)
    (e : Ending Imaged) : Prop :=
  ∃ out, tr = [.called (.deleteImage id) out] ∧
    (∀ f, out = .error f → f.isOrdinary = false → e = .raised f) ∧
    ((∀ f, out = .error f → f.isOrdinary = true) → ∃ f, e = .raised f ∧
      f.kind = .readinessTimeout ∧
      f.context? = some ⟨.text id, some elapsed, some p.timeout, seen⟩ ∧
      (∀ a, out = .ok a → f.cleanup? = none) ∧ ∀ g, out = .error g → f.cleanup? = some g)

/-- An image that is taken back is never returned. -/
lemma TakenBack.ne_returned {elapsed : Float} {seen : Value} {tr : List Happening}
    {e : Ending Imaged} (H : p.TakenBack id elapsed seen tr e) (r : Imaged) :
    e ≠ .returned r := by
  obtain ⟨out, -, hkept, htimeout⟩ := H
  by_cases hordinary : ∀ f, out = .error f → f.isOrdinary = true
  · obtain ⟨f, rfl, -⟩ := htimeout hordinary
    simp
  · push Not at hordinary
    obtain ⟨f, hf, ho⟩ := hordinary
    rw [hkept f hf (Bool.eq_false_iff.2 ho)]
    simp

/-- Discarding an image takes one call.

**Proof sketch.** Nothing but the deletion is called for. A fault that can be handled is returned,
and any other one passed on. -/
lemma meets_discard (env : Surroundings σ) (id : String) (bound : List (String × Value))
    (m : World.Mind) :
    (discard env id bound).Meets m fun tr e m' => m' = m ∧
      ∃ out, tr = [.called (.deleteImage id) out] ∧
        ((∃ a, out = .ok a ∧ e = .returned none) ∨
          ∃ f, out = .error f ∧ (f.isOrdinary = true ∧ e = .returned (some f) ∨
            f.isOrdinary = false ∧ e = .raised f)) := by
  unfold discard
  refine Meets.attempt_bind fun out => ?_
  cases out with
  | ok a => exact Meets.note_bind (Meets.pure ⟨rfl, _, rfl, Or.inl ⟨a, rfl, rfl⟩⟩)
  | error f =>
    dsimp only
    split
    · next hf =>
      exact Meets.note_bind (Meets.pure ⟨rfl, _, rfl, Or.inr ⟨f, rfl, Or.inl ⟨hf, rfl⟩⟩⟩)
    · next hf =>
      exact Meets.raise ⟨rfl, _, rfl, Or.inr ⟨f, rfl, Or.inr ⟨Bool.eq_false_iff.2 hf, rfl⟩⟩⟩

/-! ## The whole making -/

/-- What follows the wait for an image, by how the wait ended. -/
inductive Closes (p : Imager) (handle : Handle) (waited : List Happening) :
    List Happening → Ending (Poll.Outcome Float) → Ending Imaged → Prop
  | available {o : Poll.Outcome Float} (ho : o.ready = true) :
    Closes p handle waited [] (.returned o)
      (.returned ⟨⟨handle.id, lastRead handle.status waited⟩, o.elapsed, .ready⟩)
  /-- The wait timed out. -/
  | takenBack {closing : List Happening} {o : Poll.Outcome Float} {e : Ending Imaged}
      (ho : o.ready = false)
      (hback : p.TakenBack handle.id o.elapsed (lastRead handle.status waited) closing e) :
    Closes p handle waited closing (.returned o) e
  /-- A fault ended the wait. -/
  | raised {f : Fault} : Closes p handle waited [] (.raised f) (.raised f)
  /-- The wait was still going on. -/
  | unfinished : Closes p handle waited [] .unfinished .unfinished

/-- The making of an image whose node was not cloned. -/
lemma create_of_refused {source name : String} {w w₁ : World σ} {f : Fault} (horizon : Nat)
    (hclone : clone env source name [("source_id", .text source), ("image_name", .text name)] w =
      (.raised f, w₁)) : p.create env horizon source name w = (.raised f, w₁) :=
  Flow.bind_of_raised hclone

/-- Once it was cloned, the image is waited for; it is then handed over or taken back.

**Proof sketch.** After the wait the ready image is handed over with the last state. An image that
is not is deleted, and whatever comes of that is put into the fault of the timeout, unless it cannot
be handled. -/
lemma create_of_cloned (p : Imager) (horizon : Nat) {source name : String} {handle : Handle}
    {w w₁ : World σ}
    (hclone : clone env source name [("source_id", .text source), ("image_name", .text name)] w =
      (.returned handle, w₁)) :
    ∃ w₂ rest, p.create env horizon source name w =
        (World.poll env (p.settings handle) (p.availableCheck env handle.id) horizon >>= rest) w₂ ∧
      w₂.history = w₁.history ∧ w₂.seen = handle.status ∧
      ∀ (o : Poll.Outcome Float) m, (rest o).Meets m fun tr e _ =>
        (o.ready = true → tr = [] ∧ e = .returned ⟨⟨handle.id, m.seen⟩, o.elapsed, .ready⟩) ∧
        (o.ready = false → p.TakenBack handle.id o.elapsed m.seen tr e) := by
  unfold create
  rw [Flow.bind_of_returned hclone, Flow.see_bind_apply, Flow.note_bind_apply]
  refine ⟨_, _, rfl, rfl, rfl, fun o m => ?_⟩
  dsimp only
  split
  · next ho =>
    exact Meets.note_bind (Meets.lastSeen_bind (Meets.pure ⟨fun _ => ⟨rfl, rfl⟩, by simp [ho]⟩))
  · next ho =>
    refine Meets.note_bind (Meets.bind ((meets_discard env _ _ m).mono ?_))
    rintro _ e _ ⟨rfl, out, rfl, ⟨a, rfl, rfl⟩ | ⟨f, rfl, ⟨hf, rfl⟩ | ⟨hf, rfl⟩⟩⟩
    · refine Meets.lastSeen_bind (Meets.raise ⟨by simp [ho], fun _ => ⟨.ok a, rfl, by simp, ?_⟩⟩)
      exact fun _ => ⟨_, rfl, rfl, rfl, fun _ _ => rfl, by simp⟩
    · refine Meets.lastSeen_bind (Meets.raise ⟨by simp [ho], fun _ => ⟨.error f, rfl, ?_, ?_⟩⟩)
      · rintro g ⟨⟩ hg
        exact absurd (hf.symm.trans hg) (by simp)
      · refine fun _ => ⟨_, rfl, rfl, rfl, by simp, ?_⟩
        rintro g ⟨⟩
        rfl
    · refine ⟨by simp [ho], fun _ => ⟨.error f, rfl, ?_, fun hordinary => ?_⟩⟩
      · rintro g ⟨⟩ -
        rfl
      · exact absurd ((hordinary f rfl).symm.trans hf) (by simp)

/-- **The making of an image that was cloned** waits for it, and then does what the end of the wait
calls for.

**Proof sketch.** The wait is described by `meets_wait`. If it returned, the rest of
`create_of_cloned` follows from what it has seen last; if it did not, nothing follows. -/
lemma closes_of_cloned (hbounds : ¬ p.timeout ≤ 0 ∧ ¬ p.period ≤ 0) (horizon : Nat)
    {source name : String} {handle : Handle} {w w₁ : World σ}
    (hclone : clone env source name [("source_id", .text source), ("image_name", .text name)] w =
      (.returned handle, w₁)) :
    ∃ earlier last waited closing polled w₂ w₃,
      w₂.history = w₁.history ∧ w₂.seen = handle.status ∧
      World.poll env (p.settings handle) (p.availableCheck env handle.id) horizon w₂ =
        (polled, w₃) ∧ w₃.history = w₂.history ++ waited ∧
      p.Waited (p.settings handle) handle.id earlier last waited polled ∧
      (∀ out ∈ earlier, p.NotYet (p.settings handle) out) ∧
      (p.create env horizon source name w).2.history = w₁.history ++ (waited ++ closing) ∧
      p.Closes handle waited closing polled (p.create env horizon source name w).1 := by
  obtain ⟨w₂, rest, hcreate, hhistory, hseen, hrest⟩ := create_of_cloned p horizon hclone
  obtain ⟨waited, hwaited, earlier, last, H, hearlier, hlast⟩ :=
    meets_wait p env handle hbounds horizon w₂.mind w₂ rfl
  rcases hpoll : World.poll env (p.settings handle) (p.availableCheck env handle.id) horizon w₂
    with ⟨polled, w₃⟩
  rw [hpoll] at hwaited H hlast
  replace hlast : w₃.mind.seen = lastRead handle.status waited :=
    hlast.trans (congrArg (lastRead · waited) hseen)
  have hclosing : ∃ closing, (p.create env horizon source name w).2.history =
      w₃.history ++ closing ∧
      p.Closes handle waited closing polled (p.create env horizon source name w).1 := by
    rw [hcreate]
    cases polled with
    | returned o =>
      rw [Flow.bind_of_returned hpoll]
      obtain ⟨closing, hc, hready, hlate⟩ := hrest o w₃.mind w₃ rfl
      rw [hlast] at hready hlate
      refine ⟨closing, hc, ?_⟩
      by_cases ho : o.ready = true
      · obtain ⟨rfl, he⟩ := hready ho
        rw [he]
        exact .available ho
      · exact .takenBack (Bool.eq_false_iff.2 ho) (hlate (Bool.eq_false_iff.2 ho))
    | raised f =>
      rw [Flow.bind_of_raised hpoll]
      exact ⟨[], (List.append_nil _).symm, .raised⟩
    | unfinished =>
      rw [Flow.bind_of_unfinished hpoll]
      exact ⟨[], (List.append_nil _).symm, .unfinished⟩
  obtain ⟨closing, hc, hcloses⟩ := hclosing
  refine ⟨earlier, last, waited, closing, polled, w₂, w₃, hhistory, hseen, hpoll, hwaited, H,
    hearlier, ?_, hcloses⟩
  rw [hc, hwaited, hhistory, List.append_assoc]

namespace Closes

variable {handle : Handle} {waited closing : List Happening}
  {polled : Ending (Poll.Outcome Float)} {e : Ending Imaged}

/-- What follows the wait is nothing, or the deletion. -/
lemma calls (H : p.Closes handle waited closing polled e) :
    closing = [] ∨ ∃ out, closing = [.called (.deleteImage handle.id) out] := by
  cases H with
  | takenBack ho hback =>
    obtain ⟨out, rfl, -⟩ := hback
    exact Or.inr ⟨out, rfl⟩
  | available | raised | unfinished => exact Or.inl rfl

/-- The image is deleted if and only if the wait was over before it got available. -/
lemma delete_iff (H : p.Closes handle waited closing polled e) :
    (∃ out, closing = [.called (.deleteImage handle.id) out]) ↔
      ∃ o, polled = .returned o ∧ o.ready = false := by
  cases H with
  | available ho => simp [ho]
  | takenBack ho hback =>
    obtain ⟨out, rfl, -⟩ := hback
    simp [ho]
  | raised | unfinished => simp

/-- If an image is deleted at the end, then the wait has come to an end, and the image was taken
back with what was read last. -/
lemma takenBack_of_delete (H : p.Closes handle waited closing polled e)
    {out : Except Fault Value} (hout : closing = [.called (.deleteImage handle.id) out]) :
    ∃ o, polled = .returned o ∧
      p.TakenBack handle.id o.elapsed (lastRead handle.status waited) closing e := by
  cases H with
  | takenBack ho hback => exact ⟨_, rfl, hback⟩
  | available | raised | unfinished => exact absurd hout (by simp)

/-- A fault that ends the wait stays what it is. -/
lemma of_raised {f : Fault} (H : p.Closes handle waited closing (.raised f) e) :
    closing = [] ∧ e = .raised f := by
  cases H
  exact ⟨rfl, rfl⟩

/-- A wait that is not finished has no closing. -/
lemma of_unfinished (H : p.Closes handle waited closing .unfinished e) :
    closing = [] ∧ e = .unfinished := by
  cases H
  exact ⟨rfl, rfl⟩

/-- An image is returned if and only if the wait was over because it got available. -/
lemma returned_iff (H : p.Closes handle waited closing polled e) :
    (∃ r, e = .returned r) ↔ ∃ o, polled = .returned o ∧ o.ready = true := by
  cases H with
  | available ho => simp [ho]
  | takenBack ho hback => simp [ho, hback.ne_returned]
  | raised | unfinished => simp

/-- If an image is returned, then the wait has found it usable, nothing was deleted, and it has the
state that was read last. -/
lemma of_returned (H : p.Closes handle waited closing polled e) {r : Imaged}
    (hr : e = .returned r) : ∃ o, polled = .returned o ∧ o.ready = true ∧ closing = [] ∧
      r = ⟨⟨handle.id, lastRead handle.status waited⟩, o.elapsed, .ready⟩ := by
  cases H with
  | available ho => exact ⟨_, rfl, ho, rfl, (Ending.returned.inj hr).symm⟩
  | takenBack ho hback => exact absurd hr (hback.ne_returned r)
  | raised | unfinished => exact absurd hr (by simp)

end Closes

/-- **The calls of the making of an image and its outcome.** The history of the making of an image
grows by the call that clones the node, by the reads and pauses of the wait, and then by nothing or
by the deletion of the image. If the node is not cloned, nothing else is called, and a fault that
can be handled and is not of a lifecycle flow becomes a failed creation. The wait makes as many
reads as it makes attempts; a fault that does not count as "not yet" ends it, nothing is called
after that, and the fault stays what it is. The image is deleted if and only if the wait timed out.
Then a fault is raised that carries what the last answered read found and, if the deletion failed,
why; what a deletion that does not fail answers is of no account. An image is returned if and only
if some read of the wait showed that it can be used, and with what this read found.

**Proof sketch.** Cloning meets the first part. If the node is cloned, the wait meets the second
one: each of its reads is a "not yet" but the last. What follows is told by the last read. -/
theorem image_outcome (p : Imager) (env : Surroundings σ) (htimeout : 0 < p.timeout)
    (hperiod : 0 < p.period) (horizon : Nat) (source name : String) (w : World σ) :
    ∃ created rest, (p.create env horizon source name w).2.history =
        w.history ++ .called (.createImage source name) created :: rest ∧
      -- the node is not cloned
      (∀ f, created = .error f → rest = [] ∧
        (f.isLifecycle = true ∨ f.isOrdinary = false →
          (p.create env horizon source name w).1 = .raised f) ∧
        (f.isLifecycle = false → f.isOrdinary = true →
          ∃ g, (p.create env horizon source name w).1 = .raised (.causedBy g f) ∧
            g.kind = .createFailed)) ∧
      ∀ handle, created = .ok handle → ∃ n waited closing polled,
        rest = waited ++ closing ∧
        -- the wait
        (∃ w₁ w₂, w₁.history = w.history ++ [.called (.createImage source name) created] ∧
          World.poll env (p.settings handle) (p.availableCheck env handle.id) horizon w₁ =
            (polled, w₂) ∧ w₂.history = w₁.history ++ waited) ∧
        waited.filterMap Happening.call? = List.replicate n (.getImage handle.id) ∧
        (∀ o, polled = .returned o → o.attempts = n) ∧
        -- a fault ends the wait
        (∀ f, polled = .raised f → closing = [] ∧
          (p.create env horizon source name w).1 = .raised f ∧
          ((∃ out, .called (.getImage handle.id) out ∈ waited ∧ p.answer out = .error f ∧
            (p.settings handle).forgives f = false) ∨ .paused p.period (some f) ∈ waited)) ∧
        (∀ out f, .called (.getImage handle.id) out ∈ waited → p.answer out = .error f →
          (p.settings handle).forgives f = false → polled = .raised f) ∧
        (polled = .unfinished → closing = [] ∧
          (p.create env horizon source name w).1 = .unfinished) ∧
        -- the image is deleted
        (closing = [] ∨ ∃ out, closing = [.called (.deleteImage handle.id) out]) ∧
        ((∃ out, closing = [.called (.deleteImage handle.id) out]) ↔
          ∃ o, polled = .returned o ∧ o.ready = false) ∧
        (∀ out, closing = [.called (.deleteImage handle.id) out] →
          (∀ f, out = .error f → f.isOrdinary = false →
            (p.create env horizon source name w).1 = .raised f) ∧
          ((∀ f, out = .error f → f.isOrdinary = true) → ∃ o f, polled = .returned o ∧
            (p.create env horizon source name w).1 = .raised f ∧ f.kind = .readinessTimeout ∧
            f.context? = some ⟨.text handle.id, some o.elapsed, some p.timeout,
              lastRead handle.status waited⟩ ∧
            (∀ a, out = .ok a → f.cleanup? = none) ∧
            ∀ g, out = .error g → f.cleanup? = some g)) ∧
        -- the image can be used
        ((∃ r, (p.create env horizon source name w).1 = .returned r) ↔
          ∃ v, .called (.getImage handle.id) (.ok v) ∈ waited ∧ p.IsUsable v) ∧
        ∀ r, (p.create env horizon source name w).1 = .returned r → ∃ o before v,
          polled = .returned o ∧ closing = [] ∧
          waited = before ++ [.called (.getImage handle.id) (.ok v)] ∧
          p.IsUsable v ∧ r = ⟨⟨handle.id, v⟩, o.elapsed, .ready⟩ := by
  have hbounds : ¬ p.timeout ≤ 0 ∧ ¬ p.period ≤ 0 :=
    ⟨Binary.not_le_of_lt htimeout, Binary.not_le_of_lt hperiod⟩
  obtain ⟨tr, htr, created, rfl, hcreated⟩ := meets_clone env source name
    [("source_id", .text source), ("image_name", .text name)] w.mind w rfl
  rcases hclone : clone env source name
    [("source_id", .text source), ("image_name", .text name)] w with ⟨e, w₁⟩
  rw [hclone] at htr hcreated
  refine ⟨created, ?_⟩
  cases created with
  | error f =>
    obtain rfl : e = .raised (refusal source name f) := hcreated
    rw [create_of_refused horizon hclone]
    refine ⟨[], htr, ?_, by simp⟩
    rintro g ⟨⟩
    refine ⟨rfl, fun hf => ?_, fun hl ho => ?_⟩
    · exact congrArg Ending.raised (if_pos (by simpa using hf))
    · exact ⟨_, congrArg Ending.raised (if_neg (by simp [hl, ho])), rfl⟩
  | ok handle =>
    obtain rfl : e = .returned handle := hcreated
    obtain ⟨earlier, last, waited, closing, polled, w₂, w₃, hw₂, -, hpoll, hwaited, H, hearlier,
      hhistory, hcloses⟩ := closes_of_cloned hbounds horizon hclone
    refine ⟨waited ++ closing, ?_, by simp, ?_⟩
    · rw [hhistory, htr, List.append_assoc]
      rfl
    rintro _ ⟨⟩
    refine ⟨earlier.length + 1, waited, closing, polled, rfl,
      ⟨w₂, w₃, hw₂.trans htr, hpoll, hwaited⟩, H.calls, fun o ho => H.attempts ho, ?_,
      fun out f hout hf hforgives => H.raised_of_error hearlier hout hf hforgives, ?_,
      hcloses.calls, hcloses.delete_iff, ?_, ?_, ?_⟩
    · rintro f rfl
      obtain ⟨rfl, he⟩ := hcloses.of_raised
      exact ⟨rfl, he, H.exists_of_raised⟩
    · rintro rfl
      exact hcloses.of_unfinished
    · intro out hout
      obtain ⟨o, hpolled, out', hout', hkept, htimedOut⟩ := hcloses.takenBack_of_delete hout
      obtain rfl : out = out' := by simpa using hout.symm.trans hout'
      refine ⟨hkept, fun hordinary => ?_⟩
      obtain ⟨f, hf⟩ := htimedOut hordinary
      exact ⟨o, f, hpolled, hf⟩
    · rw [hcloses.returned_iff, H.ready_iff, H.usable_iff hearlier]
    · intro r hr
      obtain ⟨o, hpolled, ho, hclosing, hlast⟩ := hcloses.of_returned hr
      obtain ⟨before, v, hbefore, hv⟩ := H.exists_of_ready hpolled ho
      rw [hbefore, lastRead_append_of_read rfl] at hlast
      exact ⟨o, before, v, hpolled, hclosing, hbefore, hv, hlast⟩

/-- An image was asked to be deleted. -/
def isDiscard : Happening → Bool
  | .called (.deleteImage _) _ => true
  | _ => false

/-- A happening that discards an image is a call to delete some image. -/
lemma call?_of_isDiscard {h : Happening} (hd : isDiscard h = true) :
    ∃ id, h.call? = some (.deleteImage id) := by
  cases h with
  | called c out => cases c <;> first | exact ⟨_, rfl⟩ | exact absurd hd Bool.false_ne_true
  | paused s cut => exact absurd hd Bool.false_ne_true

/-- An image that can be used once its state is zero. -/
def counting : Imager where
  isAvailable v := .ok (v.agrees (.int 0))
  timeout := 5.0
  transient := [.timedOut]

/-- An image that gets available. -/
def prompt : Script where
  created := [⟨none, .ok { id := "image-1" }⟩]
  states := [⟨none, .ok .null⟩, ⟨none, .ok (.int 0)⟩]

/-- An image that is slow to get available, that cannot be read a second time, and that cannot be
deleted. -/
def slow : Script where
  created := [⟨none, .ok { id := "image-1" }⟩]
  states := [⟨some 3.0, .ok (.int 1)⟩, ⟨some 3.0, .error (.plain .timedOut none)⟩]
  deleted := [⟨none, .error (.plain .connection none)⟩]

/-- The making of such an image. -/
def counted (script : Script) : Ending Imaged × World Script :=
  counting.create Script.surroundings 5 "node-1" "image" { backend := script }

/-- An image that gets available is returned with what its last read found. One that does not is
deleted, and the fault says why this failed.

**Proof sketch.** The theorem is applied to two runs. Of the first one it is computed that it
returns, and of the second one that it deletes the image, which fails with a fault that can be
handled. -/
theorem image_outcome_counting :
    0 < counting.timeout ∧ 0 < counting.period ∧
      (∃ handle before v r, (counted prompt).2.history =
          .called (.createImage "node-1" "image") (.ok handle) ::
            before ++ [.called (.getImage handle.id) (.ok v)] ∧
        counting.IsUsable v ∧ (counted prompt).1 = .returned r ∧ r.handle = ⟨handle.id, v⟩) ∧
      ∃ f g, (counted slow).1 = .raised f ∧ f.kind = .readinessTimeout ∧ f.cleanup? = some g := by
  have htimeout : 0 < counting.timeout := by decide
  have hperiod : 0 < counting.period := by decide
  refine ⟨htimeout, hperiod, ?_, ?_⟩
  · have hreturned : (counted prompt).1.result?.isSome = true := by decide +kernel
    obtain ⟨r, hresult⟩ := Option.isSome_iff_exists.1 hreturned
    have hr : (counted prompt).1 = .returned r := Ending.eq_returned_of_result? hresult
    obtain ⟨created, rest, hhistory, hrefused, hcreated⟩ := image_outcome counting
      Script.surroundings htimeout hperiod 5 "node-1" "image" { backend := prompt }
    cases created with
    | error f =>
      obtain ⟨-, hkept, hwrapped⟩ := hrefused f rfl
      by_cases hf : f.isLifecycle = true ∨ f.isOrdinary = false
      · exact absurd (hr.symm.trans (hkept hf)) (by simp)
      · obtain ⟨g, hg, -⟩ := hwrapped (by simpa using (not_or.1 hf).1)
          (by simpa using (not_or.1 hf).2)
        exact absurd (hr.symm.trans hg) (by simp)
    | ok handle =>
      obtain ⟨n, waited, closing, polled, rfl, -, -, -, -, -, -, -, -, -, -, hlast⟩ :=
        hcreated handle rfl
      obtain ⟨o, before, v, -, rfl, rfl, hv, hlast⟩ := hlast r hr
      refine ⟨handle, before, v, r, ?_, hv, hr, by rw [hlast]⟩
      exact hhistory.trans (by simp)
  · have hdiscarded : (counted slow).2.history.any isDiscard = true := by decide +kernel
    have hfailed : (counted slow).2.history.any (fun h => isDiscard h && h.fault?.isNone) = false :=
      by decide +kernel
    have hmild : (counted slow).2.history.all (fun h => h.fault?.all Fault.isOrdinary) = true := by
      decide +kernel
    obtain ⟨created, rest, hhistory, hrefused, hcreated⟩ := image_outcome counting
      Script.surroundings htimeout hperiod 5 "node-1" "image" { backend := slow }
    replace hhistory : (counted slow).2.history =
        .called (.createImage "node-1" "image") created :: rest := hhistory
    rw [hhistory] at hdiscarded hfailed hmild
    cases created with
    | error f =>
      obtain ⟨rfl, -⟩ := hrefused f rfl
      exact absurd hdiscarded (by simp [isDiscard])
    | ok handle =>
      obtain ⟨n, waited, closing, polled, rfl, -, hcalls, -, -, -, -, hclosing, -, hback, -⟩ :=
        hcreated handle rfl
      have hwaited : waited.any isDiscard = false := by
        refine List.any_eq_false.2 fun h hh hd => ?_
        obtain ⟨id, hid⟩ := call?_of_isDiscard hd
        have hmem := hcalls ▸ List.mem_filterMap.2 ⟨h, hh, hid⟩
        simp at hmem
      rcases hclosing with rfl | ⟨out, rfl⟩
      · exact absurd hdiscarded (by simp [hwaited, isDiscard])
      · have hno := List.any_eq_false.1 hfailed (.called (.deleteImage handle.id) out) (by simp)
        have hordinary := List.all_eq_true.1 hmild (.called (.deleteImage handle.id) out) (by simp)
        cases out with
        | ok a => exact absurd rfl hno
        | error g =>
          obtain ⟨o, f, -, hf, hkind, -, -, hcleanup⟩ :=
            (hback _ rfl).2 (by rintro _ ⟨⟩; exact hordinary)
          exact ⟨f, g, hf, hkind, hcleanup g rfl⟩

end NodeKeeper.Imager
