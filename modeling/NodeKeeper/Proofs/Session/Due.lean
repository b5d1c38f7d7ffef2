import NodeKeeper.Proofs.Session.Entitled

/-!
# Turns that are due

A session that takes its turns in passes forgets nobody: whoever can go on is in the queue, and so
is every outcome that is still to be handed over. Once a load has landed, all who wait for it
therefore finish within two passes.

## Main definitions

* `Caller.isReady` — a caller can go on.
* `Session.Due` — the turns that callers wait for are due.

## Main results

* `Session.Due.along` — whatever happens, the turns are due that somebody waits for.
* `Session.finished_of_landed` — once a load has landed, all who wait for it finish.
-/

namespace NodeKeeper

/-- The caller can go on. -/
def Caller.isReady {κ ν τ α φ δ : Type} : Caller κ ν τ α φ δ → Bool
  | .fresh _ | .answered _ _ => true
  | .waiting _ _ | .held _ _ | .freed _ _ _ | .cancelled | .finished _ => false

namespace Session

variable {σ κ ν τ α φ δ : Type}

/-- The callers that can go on are among these tasks or in the queue, and so are the outcomes of
loads for those who still wait for them. -/
structure Due (ts : List Task) (s : Session σ κ ν τ α φ δ) : Prop where
  ready : ∀ (c : Nat) x, s.callers[c]? = some x → x.isReady = true → .caller c ∈ ts ++ s.queue
  landed : ∀ (c l : Nat) phase f o, s.callers[c]? = some (.waiting l phase) →
    s.flights[l]? = some f → f.progress = .landed o → .deliver l c ∈ ts ++ s.queue

variable [DecidableEq κ] [Keylike κ] [Add τ] [LE τ] [DecidableLE τ]

variable {C : Client σ κ ν τ α φ δ} {s : Session σ κ ν τ α φ δ}

/-! ## The queue -/

omit [DecidableEq κ] [Keylike κ] [Add τ] [LE τ] [DecidableLE τ] in
/-- What was due is still due after an answer has arrived.

**Proof sketch.** To free somebody puts a turn at the end of the queue, and `release_of_free`
extends this to all who wait at the gate. -/
lemma queue_subset_release (gate : String) (a : Answer κ ν τ α) :
    s.queue ⊆ (s.release gate a).2.queue := by
  have hfree (s : Session σ κ ν τ α φ δ) (t : Task) : s.queue ⊆ (free a s t).queue := by
    cases t with
    | caller c | load l =>
      simp only [free]
      split
      · exact List.subset_append_left _ _
      · exact List.Subset.refl _
    | deliver l c => exact List.Subset.refl _
  exact release_of_free (P := fun s' => s.queue ⊆ s'.queue) (List.Subset.refl _) (fun _ _ h => h)
    (fun s' t h => List.Subset.trans h (hfree s' t)) gate

/-- What was due is still due after a caller has gone on.

**Proof sketch.** To start a load lines up its first turn behind the others. Otherwise the queue is
left as it is. -/
lemma queue_subset_follow (c : Nat) (next : Turn ν φ δ) :
    s.queue ⊆ (s.follow C c next).queue := by
  cases next with
  | done r => exact List.Subset.refl _
  | wait l job phase =>
    cases job with
    | none => exact List.Subset.refl _
    | some job => exact List.subset_append_left _ _
  | errand job phase =>
    rcases s.follow_errand (C := C) c job phase with ⟨_, _, h⟩ | ⟨_, _, h⟩ <;> rw [h]
    · exact List.Subset.refl _
    · exact List.Subset.refl _

/-- What was due is still due after a turn, apart from that turn itself, which was taken out of the
queue before.

**Proof sketch.** A turn lines up those of others behind the queue: a load that lands those who wait
for it, a delivery that of its caller. -/
lemma queue_subset_turn (t : Task) : s.queue ⊆ (s.turn C t).queue := by
  cases t with
  | caller c =>
    have hfollow (stage : Stage σ κ ν τ) (next : Turn ν φ δ) :
        s.queue ⊆ (({ s with stage } : Session _ _ _ _ _ _ _).follow C c next).queue :=
      queue_subset_follow (s := { s with stage }) c next
    simp only [turn, turnCaller]
    split
    · exact hfollow _ _
    · exact hfollow _ _
    · exact List.Subset.refl _
    · exact List.Subset.refl _
    · exact List.Subset.refl _
  | load l =>
    have hturn := loadTurn (C := C) (s := s) l
    rw [turn]
    generalize s.turnLoad C l = s' at hturn ⊢
    cases hturn with
    | idle => exact List.Subset.refl _
    | asked => exact List.Subset.refl _
    | answered => exact List.subset_append_left _ _
    | freed => exact List.subset_append_left _ _
  | deliver l c =>
    simp only [turn, deliver]
    split
    · split
      · exact List.subset_append_left _ _
      · exact List.Subset.refl _
    · exact List.Subset.refl _

/-- No turn is forgotten, unless somebody makes up the queue anew. -/
lemma queue_subset_move {m : Move σ κ ν τ α φ} (hm : ∀ queue, m ≠ .schedule queue) :
    s.queue ⊆ (s.move C m).queue := by
  cases m with
  | spawn phase => exact List.subset_append_left _ _
  | cancel c =>
    simp only [move, cancel]
    split <;> first | exact List.Subset.refl _ | exact List.subset_append_left _ _
  | release gate a => exact queue_subset_release gate a
  | schedule queue => exact absurd rfl (hm queue)
  | turn t => exact queue_subset_turn t
  | edit _ | elapse _ | stir _ => exact List.Subset.refl _

/-- Who takes its turn waits or is done afterwards.

**Proof sketch.** After its turn a caller has finished, waits for a load or for an answer, or was
cancelled and has given up. In none of these cases a turn of its own is due. -/
lemma isReady_turnCaller {c : Nat} {y : Caller κ ν τ α φ δ}
    (hy : (s.turnCaller C c).callers[c]? = some y) : y.isReady = false := by
  have hfollow {s : Session σ κ ν τ α φ δ} {x : Caller κ ν τ α φ δ} {next : Turn ν φ δ}
      (hx : s.callers[c]? = some x) (hy : (s.follow C c next).callers[c]? = some y) :
      y.isReady = false := by
    obtain ⟨z, hz, hlead⟩ := callers_follow_self (C := C) hx next
    obtain rfl := Option.some.inj (hy.symm.trans hz)
    cases next with
    | done r => rw [show y = .finished r from hlead]; rfl
    | wait l job phase => rw [show y = .waiting l phase from hlead]; rfl
    | errand job phase => rcases hlead with rfl | ⟨r, rfl⟩ <;> rfl
  cases hc : s.callers[c]? with
  | none =>
    rw [turnCaller, hc] at hy
    exact absurd (hc.symm.trans hy) (by simp)
  | some x =>
    cases x with
    | fresh phase =>
      rw [turnCaller_of_fresh hc] at hy
      exact hfollow (s := { s with stage := (C.start phase s.stage).2 }) hc hy
    | answered r phase =>
      rw [turnCaller_of_answered hc] at hy
      exact hfollow (s := { s with stage := (C.resume phase r s.stage).2 }) hc hy
    | freed a job phase =>
      rw [turnCaller, hc] at hy
      obtain ⟨r, hr⟩ := callers_settle_self (C := C) hc job phase a
      rw [← Option.some.inj (hr.symm.trans hy)]
      rfl
    | cancelled =>
      rw [turnCaller, hc] at hy
      rw [← Option.some.inj ((callers_setCaller_self hc _).symm.trans hy)]
      rfl
    | waiting _ _ | held _ _ | finished _ =>
      rw [turnCaller, hc] at hy
      rw [← Option.some.inj (hc.symm.trans hy)]
      rfl

/-- A load that lands hands its outcome to all who joined it.

**Proof sketch.** The load landed in this turn, since it had not landed before. When a load lands, a
delivery is lined up for each of its waiters. -/
lemma deliver_mem_queue {l c : Nat} {f f' : Flight κ ν τ α δ} {o : Outcome ν}
    (hf : s.flights[l]? = some f) (hc : c ∈ f.waiters) (hp : f.progress.hasLanded = false)
    (hf' : (s.turnLoad C l).flights[l]? = some f') (ho : f'.progress = .landed o) :
    .deliver l c ∈ (s.turnLoad C l).queue := by
  have hdeliver (s : Session σ κ ν τ α φ δ) (a : Answer κ ν τ α) :
      .deliver l c ∈ (s.land C l f a).queue :=
    List.mem_append_right _ (List.mem_map_of_mem hc)
  have hturn := loadTurn (C := C) (s := s) l
  generalize s.turnLoad C l = s' at hturn hf' ⊢
  cases hturn with
  | idle =>
    obtain rfl := Option.some.inj (hf.symm.trans hf')
    exact absurd hp (by simp [ho, Progress.hasLanded])
  | @asked g gate hg hpg ha =>
    have hheld := flights_setProgress_self (s := (s.ask C g.job).2.await gate (.load l)) hg .held
    obtain rfl := Option.some.inj (hheld.symm.trans hf')
    exact absurd ho (by simp)
  | @answered g a hg hpg ha =>
    obtain rfl := Option.some.inj (hf.symm.trans hg)
    exact hdeliver _ a
  | @freed g a hg hpg =>
    obtain rfl := Option.some.inj (hf.symm.trans hg)
    exact hdeliver _ a

/-! ## Moves -/

/-- The turn of a caller lands no load. -/
lemma landed_of_turnCaller {c l : Nat} {f' : Flight κ ν τ α δ} {o : Outcome ν}
    (hf' : (s.turnCaller C c).flights[l]? = some f') (ho : f'.progress = .landed o) :
    ∃ f, s.flights[l]? = some f ∧ f.progress = .landed o := by
  have hstep := flightStep_turnCaller (C := C) (s := s) l c
  rw [hf'] at hstep
  generalize s.flights[l]? = x at hstep ⊢
  cases hstep with
  | same => exact ⟨f', rfl, ho⟩
  | started job hws => exact absurd ho (by simp)
  | joined c f => exact ⟨f, rfl, ho⟩

/-- Who has decided to wait waits for a load that has not landed.

**Proof sketch.** A load that is shared has not landed, and one that was just started has not had a
turn. -/
lemma not_landed_of_wait {key : δ → κ} (hv : (s.ledger key).Valid) {c l : Nat} {job : Option δ}
    (h : Available s.stage.cache l job) {f : Flight κ ν τ α δ} {o : Outcome ν}
    (hf : (s.turnCaller C c).flights[l]? = some f) : f.progress ≠ .landed o := by
  intro ho
  obtain ⟨g, hg, hlanded⟩ := landed_of_turnCaller hf ho
  cases job with
  | none =>
    obtain ⟨k, hk⟩ := h
    obtain ⟨g', hg', -, hunlanded⟩ := exists_shared hv hk
    obtain rfl := Option.some.inj (hg.symm.trans hg')
    exact absurd hunlanded (by simp [hlanded, Progress.hasLanded])
  | some job =>
    obtain rfl : l = s.flights.length := Eq.trans h (nextLoad_eq hv)
    exact absurd hg (by simp)

/-- Who waits for a load that has landed by now is in the queue.

**Proof sketch.** If the load had landed before, the delivery was due, and still is, unless it was
this move; but then the caller would not wait any more. If the load lands in this move,
`deliver_mem_queue` applies. -/
lemma Due.deliver_mem {ts : List Task} (H : Due ts s) {m : Move σ κ ν τ α φ} (hl : Linked s)
    {q : List Task} (hsub : (s.move C m).queue ⊆ q)
    (hkeep : ∀ t ∈ ts ++ s.queue, m ≠ .turn t → t ∈ q) {c l : Nat} {phase : φ}
    (hbefore : s.callers[c]? = some (.waiting l phase))
    (hafter : (s.move C m).callers[c]? = some (.waiting l phase)) {f : Flight κ ν τ α δ}
    {o : Outcome ν} (hf : (s.move C m).flights[l]? = some f) (ho : f.progress = .landed o) :
    .deliver l c ∈ q := by
  obtain ⟨g, hg, hmem⟩ := hl.waiting c l phase hbefore
  cases hp : g.progress with
  | landed o' =>
    refine hkeep _ (H.landed c l phase g o' hbefore hg hp) ?_
    rintro rfl
    -- the load has just handed over its outcome
    have hdelivered : (s.deliver l c).callers[c]? = some (.answered (forWaiter o') phase) := by
      simp only [deliver, hg, hp, hbefore, Option.map_some, if_true]
      exact callers_setCaller_self hbefore _
    exact absurd (hafter.symm.trans hdelivered) (by simp)
  | fresh | held | freed a =>
    have hunlanded : g.progress.hasLanded = false := by rw [hp]; rfl
    have hne (o : Outcome ν) : g.progress ≠ .landed o := by rw [hp]; simp
    have hstep := flightStep_move (C := C) (s := s) l m
    rw [hg, hf] at hstep
    cases hstep with
    | same => exact absurd ho (hne o)
    | joined c' => exact absurd ho (hne o)
    | freed gate a hheld => exact absurd ho (by simp)
    | held hfresh => exact absurd ho (by simp)
    | landed hlanded r => exact hsub (deliver_mem_queue hg hmem hunlanded hf ho)

/-- **One move** leaves the turns due that somebody waits for. A turn that is taken need not be due
any more.

**Proof sketch.** A caller that is ready was ready before, or has become so in this move: it is new,
or was answered, cancelled or freed; and whoever becomes ready is lined up. For callers that wait,
`Due.deliver_mem` applies to those who waited before; nobody begins to wait for a load that has
landed. -/
theorem Due.move {ts ts' : List Task} (H : Due ts s) (K : Conduct C) (hC : Shares C)
    (hv : (s.ledger K.key).Valid) (hl : Linked s) {m : Move σ κ ν τ α φ}
    (hm : ∀ queue, m ≠ .schedule queue) (hts : ∀ t ∈ ts, m = .turn t ∨ t ∈ ts') :
    Due ts' (s.move C m) := by
  have hqueue := queue_subset_move (C := C) (s := s) hm
  have hkeep {t : Task} (ht : t ∈ ts ++ s.queue) (hn : m ≠ .turn t) :
      t ∈ ts' ++ (s.move C m).queue := by
    rcases List.mem_append.1 ht with ht | ht
    · exact List.mem_append_left _ ((hts t ht).resolve_left hn)
    · exact List.mem_append_right _ (hqueue ht)
  refine ⟨fun c x hx hready => ?_, fun c l phase f o hwaiting hf ho => ?_⟩
  · have hstep := callerStep_move (C := C) (s := s) c m
    rw [hx] at hstep
    generalize hy : s.callers[c]? = y at hstep ⊢
    cases hstep with
    | same =>
      refine hkeep (H.ready c x hy hready) ?_
      rintro rfl
      exact absurd hready (by simp [isReady_turnCaller hx])
    | spawned phase =>
      have hlt : c < (s.callers ++ [Caller.fresh phase]).length :=
        (List.getElem?_eq_some_iff.1 hx).1
      have hge := List.getElem?_eq_none_iff.1 hy
      rw [List.length_append, List.length_singleton] at hlt
      obtain rfl : c = s.callers.length := by omega
      exact List.mem_append_right _ (List.mem_append_right _ List.mem_cons_self)
    | @delivered l o phase hl =>
      refine List.mem_append_right _ ?_
      simp [Session.move, turn, deliver, hl, hy, enqueue]
    | began phase hlead => exact absurd hready (by simp [isReady_turnCaller hx])
    | resumed r phase hlead => exact absurd hready (by simp [isReady_turnCaller hx])
    | cancelled _ | freed _ _ _ _ | settled _ _ _ _ | gaveUp =>
      exact absurd hready (by simp [Caller.isReady])
  · have hstep := callerStep_move (C := C) (s := s) c m
    rw [hwaiting] at hstep
    generalize hy : s.callers[c]? = y at hstep ⊢
    cases hstep with
    | same =>
      exact H.deliver_mem hl (List.subset_append_right ts' _) (fun _ => hkeep) hy hwaiting hf ho
    | began phase' hlead =>
      obtain ⟨job, hnext⟩ := hlead.eq_wait
      exact absurd ho (not_landed_of_wait hv (hC.start _ _ _ _ _ hnext) hf)
    | resumed r phase' hlead =>
      obtain ⟨job, hnext⟩ := hlead.eq_wait
      exact absurd ho (not_landed_of_wait hv (hC.resume _ _ _ _ _ _ hnext) hf)

/-- A pass leaves turns due for the next one.

**Proof sketch.** The turns of a pass are taken one after the other, and each of them keeps what is
due. In the end no turn of the old queue is left. -/
theorem Due.pass (H : Due [] s) (K : Conduct C) (hC : Shares C) (hv : (s.ledger K.key).Valid)
    (hl : Linked s) : Due [] (s.pass C) := by
  have hturns (ts : List Task) (s : Session σ κ ν τ α φ δ) (H : Due ts s)
      (hv : (s.ledger K.key).Valid) (hl : Linked s) : Due [] (ts.foldl (turn C) s) := by
    induction ts generalizing s with
    | nil => exact H
    | cons t ts ih =>
      refine ih (s.turn C t) ?_ (valid_move K hv (.turn t)) (hl.move K hC hv (.turn t))
      refine H.move K hC hv hl (m := .turn t) (by simp) fun u hu => ?_
      exact (List.mem_cons.1 hu).imp (fun h => by rw [h]) id
  refine hturns s.queue { s with queue := [] } ⟨fun c x hx hready => ?_, ?_⟩ hv
    ⟨hl.waiting, hl.answered⟩
  · simpa using H.ready c x hx hready
  · intro c l phase f o hx hf ho
    simpa using H.landed c l phase f o hx hf ho

omit [DecidableEq κ] [Keylike κ] [Add τ] [LE τ] [DecidableLE τ] in
/-- In a session that nobody has entered, no turn is due. -/
lemma Due.opened (now : τ) (ttl : Option τ) (name : String) (rest : σ) :
    Due [] (opened now ttl name rest : Session σ κ ν τ α φ δ) where
  ready := fun _ _ h => absurd h (by simp [Session.opened])
  landed := fun _ _ _ _ _ h => absurd h (by simp [Session.opened])

/-- **Whatever happens**, the turns are due that somebody waits for, unless somebody makes up the
queue anew.

**Proof sketch.** Induction on the legs. A move is made as in `Due.move`; a pass takes all turns
that are due, one after the other. -/
theorem Due.along (H : Due [] s) (K : Conduct C) (hC : Shares C) (hv : (s.ledger K.key).Valid)
    (hl : Linked s) {ws : List (Leg σ κ ν τ α φ)}
    (hw : ∀ queue, .move (.schedule queue) ∉ ws) : Due [] (s.along C ws) := by
  induction ws generalizing s with
  | nil => exact H
  | cons w ws ih =>
    have hrest (queue : List Task) : .move (.schedule queue) ∉ ws :=
      fun h => hw queue (List.mem_cons_of_mem _ h)
    cases w with
    | move m =>
      have hm (queue : List Task) : m ≠ .schedule queue := by
        rintro rfl
        exact hw queue List.mem_cons_self
      exact ih (H.move K hC hv hl hm fun t ht => Or.inr ht) (valid_move K hv m)
        (hl.move K hC hv m) hrest
    | pass =>
      exact ih (H.pass K hC hv hl) (valid_along K hv [.pass]) (hl.along K hC hv [.pass]) hrest

/-! ## Outcomes that are handed over -/

/-- A turn in the queue is taken in the next pass.

**Proof sketch.** The induction is on the queue. Before the turn in question the first property is
kept, and from it on the second one. -/
lemma pass_of_mem {P Q : Session σ κ ν τ α φ δ → Prop} {t : Task} (hmem : t ∈ s.queue)
    (hQ : ∀ s t', Q s → Q (s.turn C t')) (hP : ∀ s t', P s → P (s.turn C t'))
    (ht : ∀ s, Q s → P (s.turn C t)) (H : Q { s with queue := [] }) : P (s.pass C) := by
  have hrest (ts : List Task) (s : Session σ κ ν τ α φ δ) (H : P s) : P (ts.foldl (turn C) s) :=
    List.foldlRecOn _ _ H fun s h t' _ => hP s t' h
  have hturns (ts : List Task) (s : Session σ κ ν τ α φ δ) (hmem : t ∈ ts) (H : Q s) :
      P (ts.foldl (turn C) s) := by
    induction ts generalizing s with
    | nil => exact absurd hmem (by simp)
    | cons t' ts ih =>
      rcases List.mem_cons.1 hmem with rfl | hmem
      · exact hrest ts _ (ht s H)
      · exact ih _ hmem (hQ s t' H)
  exact hturns s.queue _ hmem H

/-- Who waits for a load that has landed gets its outcome in the next pass.

**Proof sketch.** The delivery is due, and is made in the pass. Until then the caller stays entitled
to the outcome, and once it has got it, it keeps it. -/
lemma answered_of_landed (hR : Relays C) (H : Due [] s) {c l : Nat} {phase : φ}
    {f : Flight κ ν τ α δ} {o : Outcome ν} (he : Entitled c l phase s)
    (hf : s.flights[l]? = some f) (ho : f.progress = .landed o)
    (hc : s.callers[c]? = some (.waiting l phase)) : Answered c phase o (s.pass C) := by
  have hmem := H.landed c l phase f o hc hf ho
  rw [List.nil_append] at hmem
  refine pass_of_mem (P := Answered c phase o)
    (Q := fun s => Entitled c l phase s ∧
      ∃ f, s.flights[l]? = some f ∧ f.progress = .landed o)
    hmem (fun s t' hQ => ?_) (fun s t' hP => hP.move hR (m := .turn t') (by simp))
    (fun s hQ => ?_) ⟨he, f, hf, ho⟩
  · obtain ⟨he, f, hf, ho⟩ := hQ
    obtain ⟨f', hf', hcont⟩ := continued_move (C := C) (s := s) (.turn t') l f hf
    exact ⟨he.move hR (m := .turn t') (by simp), f', hf', hcont.landed o ho⟩
  · obtain ⟨⟨f, hf, -, hwaiting | ⟨o', ho', hanswered⟩⟩, g, hg, ho⟩ := hQ
    · refine Or.inl ?_
      simp only [turn, deliver, hg, ho, hwaiting, Option.map_some, if_true]
      exact callers_setCaller_self hwaiting _
    · obtain rfl := Option.some.inj (hf.symm.trans hg)
      obtain rfl := Progress.landed.inj (ho'.symm.trans ho)
      exact hanswered.move hR (m := .turn (.deliver l c)) (by simp)

/-- Who has got an outcome finishes with it in the next pass.

**Proof sketch.** The turn of the caller is due, and is taken in the pass. Until then it keeps its
outcome; in its turn it passes the outcome on, as it relays. -/
lemma finished_of_answered (hR : Relays C) (H : Due [] s) {c : Nat} {phase : φ} {o : Outcome ν}
    (ha : Answered c phase o s) :
    (s.pass C).callers[c]? = some (.finished (forWaiter o)) := by
  rcases ha with hanswered | hfinished
  · have hmem := H.ready c _ hanswered rfl
    rw [List.nil_append] at hmem
    refine pass_of_mem (P := fun s => s.callers[c]? = some (.finished (forWaiter o)))
      (Q := Answered c phase o) hmem
      (fun s t' hQ => hQ.move hR (m := .turn t') (by simp))
      (fun s t' hP => finished_move (C := C) hP (.turn t')) (fun s hQ => ?_) (Or.inl hanswered)
    rcases hQ with hanswered | hfinished
    · rw [turn, turnCaller_of_answered hanswered, hR]
      exact callers_setCaller_self hanswered _
    · exact finished_move (C := C) hfinished (.turn (.caller c))
  · rw [pass_eq_after]
    exact finished_after hfinished _

/-- **Once a load has landed**, all who joined it and were not cancelled finish with its outcome
within two passes. -/
theorem finished_of_landed (hR : Relays C) (K : Conduct C) (hC : Shares C)
    (hv : (s.ledger K.key).Valid) (hl : Linked s) (H : Due [] s) {c l : Nat} {phase : φ}
    (he : Entitled c l phase s) {f : Flight κ ν τ α δ} {o : Outcome ν} (hf : s.flights[l]? = some f)
    (ho : f.progress = .landed o) :
    ((s.pass C).pass C).callers[c]? = some (.finished (forWaiter o)) := by
  obtain ⟨g, hg, -, hwaiting | ⟨o', ho', hanswered⟩⟩ := id he
  · exact finished_of_answered hR (H.pass K hC hv hl) (answered_of_landed hR H he hf ho hwaiting)
  · obtain rfl := Option.some.inj (hf.symm.trans hg)
    obtain rfl := Progress.landed.inj (ho.symm.trans ho')
    rw [pass_eq_after _]
    exact finished_after (finished_of_answered hR H hanswered) _

end Session

end NodeKeeper
