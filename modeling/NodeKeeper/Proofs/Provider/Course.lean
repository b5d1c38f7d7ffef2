import NodeKeeper.Proofs.Config.Timing
import NodeKeeper.Proofs.Provider.Books
import NodeKeeper.Proofs.Provider.Secrecy

/-!
# What is done with simulated guests

The flows for guests are run on simulated guests, one step after the other, in any order and by any
identifiers. Every step comes to what it should, and keeps the books.

## Main definitions

* `Simulated.course`, `Simulated.final` — what is done one after the other, and the world after it.
* `Simulated.Provisioning`, `Simulated.Done.Sound` — what a provisioning and what a step comes to.
* `Simulated.Fits` — the flows are those for guests, and wait for some time.

## Main results

* `Simulated.Books.take`, `Simulated.Books.course` — every step keeps the books, and so do all.
* `Simulated.every_guest_once` — numbers, results and deletions of a course.
-/

namespace NodeKeeper.Simulated

/-! ## Courses -/

section Course

variable (p : Provisioner) (d : Dismantler) (horizon : Nat)

/-- Takes a step. -/
def Step.take (w : World Guests) (x : Step) : Done :=
  match x with
  | .provision req =>
    let r := p.provision surroundings horizon req w
    ⟨x, .provisioned r.1, w, r.2⟩
  | .destroy id =>
    let r := d.destroy surroundings none horizon id w
    ⟨x, .destroyed r.1, w, r.2⟩
  | .get id =>
    let r := World.perform surroundings (.get id) w
    ⟨x, .got r.1, w, r.2⟩

/-- Takes steps, one after the other. -/
def course (w : World Guests) : List Step → List Done
  | [] => []
  | x :: xs =>
    let y := x.take p d horizon w
    y :: course y.after xs

/-- The world after some steps. -/
def final (w : World Guests) (xs : List Step) : World Guests :=
  xs.foldl (fun w x => (x.take p d horizon w).after) w

/-- No steps, nothing done. -/
@[simp] lemma course_nil (w : World Guests) : course p d horizon w [] = [] := rfl

/-- The course of some steps is what the first one does, and then the course of the others from the
world that this one left behind. -/
@[simp] lemma course_cons (w : World Guests) (x : Step) (xs : List Step) :
    course p d horizon w (x :: xs) =
      x.take p d horizon w :: course p d horizon (x.take p d horizon w).after xs := rfl

/-- Without a step the world is in the end as it was. -/
@[simp] lemma final_nil (w : World Guests) : final p d horizon w [] = w := rfl

/-- The last world is that of the other steps, which begin where the first one ended. -/
@[simp] lemma final_cons (w : World Guests) (x : Step) (xs : List Step) :
    final p d horizon w (x :: xs) = final p d horizon (x.take p d horizon w).after xs := rfl

/-- What a step did says which step it was. -/
@[simp] lemma step_take (w : World Guests) (x : Step) : (x.take p d horizon w).step = x := by
  cases x <;> rfl

/-- Every step is taken. -/
lemma map_step_course (w : World Guests) (xs : List Step) :
    (course p d horizon w xs).map Done.step = xs := by
  induction xs generalizing w with
  | nil => rfl
  | cons x xs ih => rw [course_cons, List.map_cons, step_take, ih]

end Course

/-! ## Steps -/

/-- What a provisioning comes to that gives out a number. -/
inductive Provisioning (p : Provisioner) (k : Nat) (req : ProvisionRequest) (y : Done) : Prop
  /-- There is time for three looks. The guest is looked at once more, and stays. -/
  | ready {r : Provisioned} (htime : ¬ p.timeout ≤ y.before.now + p.period - y.before.now)
      (hreport : y.report = .provisioned (.returned r)) (hid : r.handle.id = toString k)
      (hstage : r.stage = .ready)
      (hhappenings : y.happenings = [.called (.create req) (.ok { id := toString k }),
        (Record.nth (toString k) req.instanceName 1).looked, .paused p.period none,
        (Record.nth (toString k) req.instanceName 2).looked, .paused p.period none,
        (Record.nth (toString k) req.instanceName 3).looked,
        (Record.nth (toString k) req.instanceName 4).looked])
      (hstays : y.after.backend.record? (toString k) =
        some (.nth (toString k) req.instanceName 4))
  /-- The time is up after two looks. The guest is taken back. -/
  | late {f : Fault} (htime : p.timeout ≤ y.before.now + p.period - y.before.now)
      (hreport : y.report = .provisioned (.raised f)) (hkind : f.kind = .readinessTimeout)
      (hclean : f.cleanup? = none)
      (hhappenings : y.happenings = [.called (.create req) (.ok { id := toString k }),
        (Record.nth (toString k) req.instanceName 1).looked, .paused p.period none,
        (Record.nth (toString k) req.instanceName 2).looked,
        .called (.delete (toString k)) (.ok (.bool true))])
      (hgone : y.after.backend.record? (toString k) = none)

/-- What a step comes to after others. -/
structure Done.Sound (p : Provisioner) (past : List Done) (y : Done) : Prop where
  provision : ∀ req, y.step = .provision req →
    Provisioning p (1000 + past.countP Done.provisions) req y
  /-- A teardown returns without a pause. It deletes a guest that got ready and was not deleted. -/
  destroy : ∀ id, y.step = .destroy id → ∃ r, y.report = .destroyed (.returned r) ∧
    y.happenings.filterMap Happening.pause? = [] ∧
    (r.deleted = true ↔ (∃ x ∈ past, x.readies id) ∧ ∀ x ∈ past, ¬ x.deletes id)

/-- The flows are those for guests, and wait for some time. -/
structure Fits (p : Provisioner) (d : Dismantler) : Prop where
  isReady : p.isReady = Guest.hasLogin
  login : p.login? = Guest.login?
  provisioning : ¬ p.timeout ≤ 0 ∧ ¬ p.period ≤ 0
  pending : d.pending = Guest.pending
  nameOf : d.nameOf = fun guest => (Guest.name guest).map .text
  isGone : d.isGone = fun state => .ok state.isNull
  teardown : ¬ d.timeout ≤ 0 ∧ ¬ d.period ≤ 0

/-- A configuration that was read gives such flows if its timings are finite.

**Proof sketch.** Timings that were read are valid, and what is valid stays so in seconds, by
`Timing.Valid.seconds`. That is all that the two constructors check. -/
lemma Fits.of_read {v : Value} {s : Config.Settings} (hs : Config.Settings.read v = .ok s)
    {tp td : Float × Float} (hp : s.provision.seconds = .ok tp) (hd : s.teardown.seconds = .ok td)
    (transient transient' : List Fault.Kind) :
    ∃ p d, Guest.provisioner s transient = .ok p ∧ Guest.dismantler s transient' = .ok d ∧
      Fits p d := by
  obtain ⟨hprovision, hteardown, -⟩ := Config.Settings.valid_of_read hs
  obtain ⟨hlong, hboundsP⟩ := hprovision.seconds hp
  obtain ⟨-, hboundsD⟩ := hteardown.seconds hd
  refine ⟨⟨Guest.hasLogin, Guest.login?, tp.1, tp.2, transient⟩,
    ⟨Guest.pending, fun guest => (Guest.name guest).map .text, fun state => .ok state.isNull, td.1,
      td.2, transient'⟩, ?_, ?_, ⟨rfl, rfl, hboundsP, rfl, rfl, rfl, hboundsD⟩⟩
  · unfold Guest.provisioner
    rw [hp]
    exact if_neg hlong
  · unfold Guest.dismantler
    rw [hd]
    rfl

section Take

variable {p : Provisioner} {d : Dismantler} {horizon : Nat} {past : List Done} {w : World Guests}

/-- Nothing has happened in a step but what it added to the history. -/
lemma happenings_eq {y : Done} {tr : List Happening}
    (h : y.after.history = y.before.history ++ tr) : y.happenings = tr := by
  unfold Done.happenings
  rw [h, List.drop_left]

/-- A provisioning keeps the books, and comes to what it should.

**Proof sketch.** The deadline is met or it is not, and this alone decides how the provisioning
goes: by `goes_provision_of_late` or by `goes_provision_of_ready`. The books are then kept as
`Books.late` and `Books.ready` say. -/
lemma Books.provision (F : Fits p d) (hh : 2 ≤ horizon) (H : Books past w)
    (req : ProvisionRequest) :
    let y := (Step.provision req).take p d horizon w
    Provisioning p (1000 + past.countP Done.provisions) req y ∧ Books (past ++ [y]) y.after := by
  intro y
  obtain ⟨more, rfl⟩ := Nat.exists_eq_add_of_le' hh
  rw [← H.next]
  by_cases htime : p.timeout ≤ w.now + p.period - w.now
  · obtain ⟨hend, hhistory, hscene⟩ := goes_provision_of_late req (more + 1)
      F.isReady F.provisioning H.fresh htime w rfl
    have hbackend : y.after.backend = ⟨w.backend.nextId + 1, w.backend.present⟩ :=
      congrArg World.Scene.backend hscene
    have hreport : y.report = .provisioned (.raised (p.overdue (toString w.backend.nextId)
        (w.now + p.period - w.now) (w.backend.next req 2).state)) :=
      congrArg Report.provisioned hend
    refine ⟨.late htime hreport rfl rfl (happenings_eq hhistory) ?_,
      H.late rfl (fun i => ?_) (fun i => rfl) hbackend hhistory⟩
    · rw [hbackend, Guests.record?_eq_none_iff]
      exact H.fresh
    · rw [Done.readies, hreport]
  · obtain ⟨hend, hhistory, hscene⟩ := goes_provision_of_ready req more
      F.isReady F.login F.provisioning H.fresh htime w rfl
    have hbackend : y.after.backend =
        ⟨w.backend.nextId + 1, w.backend.present ++ [w.backend.next req 4]⟩ :=
      congrArg World.Scene.backend hscene
    have hreport := congrArg Report.provisioned hend
    change y.report = _ at hreport
    refine ⟨.ready htime hreport rfl rfl (happenings_eq hhistory) ?_,
      H.ready rfl (fun i => ?_) (fun i => rfl) hbackend hhistory⟩
    · rw [hbackend]
      exact Guests.record?_last (r := w.backend.next req 4) H.fresh
    · rw [Done.readies, hreport]
      exact Bool.and_true _

/-- A teardown keeps the books, and comes to what it should.

**Proof sketch.** If the guest is not there, nothing happens but a look. If it is there, it has been
looked at four times by `exists_nth`, so it is drained at once and deleted. -/
lemma Books.destroy (F : Fits p d) (horizon : Nat) (H : Books past w) (id : String) :
    let y := (Step.destroy id).take p d horizon w
    (∃ r, y.report = .destroyed (.returned r) ∧ y.happenings.filterMap Happening.pause? = [] ∧
      (r.deleted = true ↔ (∃ x ∈ past, x.readies id) ∧ ∀ x ∈ past, ¬ x.deletes id)) ∧
      Books (past ++ [y]) y.after := by
  intro y
  rw [← H.present]
  cases hr : w.backend.record? id with
  | none =>
    obtain ⟨hend, hhistory, hscene⟩ :=
      goes_destroy_of_absent (d := d) horizon none hr w rfl
    have hbackend : y.after.backend = (w.backend.look id).2 := by
      rw [Guests.look_of_absent hr]
      exact congrArg World.Scene.backend hscene
    have hreport : y.report =
        .destroyed (.returned { id, deleted := false, elapsed := w.now - w.now }) :=
      congrArg Report.destroyed hend
    refine ⟨⟨_, hreport, ?_, by simp⟩,
      H.look rfl (fun i => ?_) (fun i => ?_) hbackend hhistory⟩
    · rw [happenings_eq hhistory]
      rfl
    · rw [Done.readies, hreport]
    · rw [Done.deletes, hreport]
      exact Bool.and_false _
  | some r =>
    obtain ⟨hostname, n, hn, rfl⟩ := H.exists_nth hr
    obtain ⟨hend, hhistory, hscene⟩ := goes_destroy_of_present horizon F.pending
      F.nameOf F.isGone F.teardown hr hn w rfl
    have hbackend : y.after.backend = (w.backend.delete id).2 :=
      congrArg World.Scene.backend hscene
    have hreport : y.report =
        .destroyed (.returned { id, deleted := true, elapsed := w.now - w.now }) :=
      congrArg Report.destroyed hend
    refine ⟨⟨_, hreport, ?_, by simp⟩,
      H.delete rfl (fun i => ?_) (fun i => ?_) hr hbackend hhistory⟩
    · rw [happenings_eq hhistory]
      rfl
    · rw [Done.readies, hreport]
    · rw [Done.deletes, hreport]
      exact Bool.and_true _

/-- **Every step** keeps the books, and comes to what it should.

**Proof sketch.** The cases are those of the step; a look at a guest is of no consequence. -/
theorem Books.take (F : Fits p d) (hh : 2 ≤ horizon) (H : Books past w) (x : Step) :
    let y := x.take p d horizon w
    y.Sound p past ∧ Books (past ++ [y]) y.after := by
  cases x with
  | provision req =>
    obtain ⟨hsound, hkept⟩ := H.provision F hh req
    refine ⟨⟨?_, by simp [Step.take]⟩, hkept⟩
    rintro _ ⟨⟩
    exact hsound
  | destroy id =>
    obtain ⟨hsound, hkept⟩ := H.destroy F horizon id
    refine ⟨⟨by simp [Step.take], ?_⟩, hkept⟩
    rintro _ ⟨⟩
    exact hsound
  | get id =>
    have hlook : surroundings.answer (.get id) w.scene.backend =
        (⟨none, .ok (w.backend.look id).1⟩, (w.backend.look id).2) := rfl
    obtain ⟨-, hhistory, hscene⟩ := Flow.Goes.perform hlook w rfl
    refine ⟨⟨by simp [Step.take], by simp [Step.take]⟩, ?_⟩
    exact H.look rfl (fun i => rfl) (fun i => rfl) (congrArg World.Scene.backend hscene) hhistory

/-- What holds in the course of some steps, and after them.

**Proof sketch.** The induction is on the steps. By `Books.take` the first one is sound, and it
keeps the books for those that follow. -/
theorem Books.course (F : Fits p d) (hh : 2 ≤ horizon) (H : Books past w) (xs : List Step) :
    (∀ before y rest, course p d horizon w xs = before ++ y :: rest → y.Sound p (past ++ before)) ∧
      Books (past ++ Simulated.course p d horizon w xs) (final p d horizon w xs) := by
  induction xs generalizing past w with
  | nil => exact ⟨by simp, by simpa using H⟩
  | cons x xs ih =>
    obtain ⟨hsound, hkept⟩ := H.take F hh x
    obtain ⟨hrest, hend⟩ := ih hkept
    refine ⟨fun before y rest heq => ?_, by simpa using hend⟩
    rw [course_cons] at heq
    cases before with
    | nil =>
      obtain ⟨rfl, -⟩ := List.cons.inj heq
      simpa using hsound
    | cons z before =>
      obtain ⟨rfl, htail⟩ := List.cons.inj heq
      simpa using hrest before y rest htail

end Take

/-! ## Deletions -/

/-- A guest that got ready is deleted once it is torn down, if it was not deleted before.

**Proof sketch.** Otherwise no step of the run deletes the guest. Then the teardown would find it,
as it got ready before, and delete it. -/
lemma countP_deletes_pos {p : Provisioner} {run before rest : List Done} {y z : Done} {id : String}
    (hsound : ∀ before y rest, run = before ++ y :: rest → y.Sound p before)
    (hrun : run = before ++ y :: rest) (hy : y.readies id = true) (hz : z ∈ rest)
    (hdestroy : z.step = .destroy id) : 0 < run.countP (Done.deletes id) := by
  obtain ⟨between, tail, rfl⟩ := List.append_of_mem hz
  have hsplit : run = (before ++ y :: between) ++ z :: tail := by simp [hrun]
  obtain ⟨r, hreport, -, hdeleted⟩ := (hsound _ _ _ hsplit).destroy id hdestroy
  rw [List.countP_pos_iff]
  by_contra hnone
  have hnever : ∀ x ∈ run, ¬ x.deletes id := fun x hx hd => hnone ⟨x, hx, hd⟩
  have hgoes : r.deleted = true :=
    hdeleted.2 ⟨⟨y, by simp, hy⟩, fun x hx => hnever x (hsplit ▸ List.mem_append_left _ hx)⟩
  refine hnever z (by simp [hsplit]) ?_
  rw [Done.deletes, hdestroy, hreport]
  simp [hgoes]

/-- **Every guest is deleted once.** Let a configuration be read without a problem, with timings for
provisioning and teardown that are finite. Its flows for guests exist, and whatever is done by them
with simulated guests, one step after the other and each observed for two pauses at least:

Every provisioning gives out the next number, from 1000 on. It returns a guest that is ready after
three looks and a final one, and the guest stays; or its time is up after two looks, and the guest
is taken back. Every teardown returns without a pause, and reports a deletion if and only if the
guest got ready before and no deletion of it was reported. No deletion is reported twice, and one
is reported as soon as a guest that got ready is torn down. No identifier is used twice, and who was
created is either there in the end or was deleted, once.

**Proof sketch.** By induction on the steps. The books say that every guest that is there between
two steps was looked at four times, so that the first look of a teardown is the fifth at least, and
the first look of its wait finds that the guest has drained. -/
theorem every_guest_once {v : Value} {s : Config.Settings} (hs : Config.Settings.read v = .ok s)
    {tp td : Float × Float} (hp : s.provision.seconds = .ok tp) (hd : s.teardown.seconds = .ok td)
    (transient transient' : List Fault.Kind) :
    ∃ p d, Guest.provisioner s transient = .ok p ∧ Guest.dismantler s transient' = .ok d ∧
      ∀ (now : Float) (horizon : Nat), 2 ≤ horizon → ∀ xs : List Step,
        let run := course p d horizon { now, backend := {} } xs
        let last := final p d horizon { now, backend := {} } xs
        run.map Done.step = xs ∧
        (∀ before y rest, run = before ++ y :: rest → y.Sound p before) ∧
        ∀ id,
          run.countP (Done.deletes id) ≤ 1 ∧
          (∀ before y rest, run = before ++ y :: rest → y.readies id →
            (∃ z ∈ rest, z.step = .destroy id) → run.countP (Done.deletes id) = 1) ∧
          last.history.countP (Happening.creates id) ≤ 1 ∧
          last.history.countP (Happening.creates id) =
            last.history.countP (Happening.deletes id) +
              if (last.backend.record? id).isSome then 1 else 0 := by
  obtain ⟨p, d, hprovisioner, hdismantler, F⟩ := Fits.of_read hs hp hd transient transient'
  refine ⟨p, d, hprovisioner, hdismantler, fun now horizon hh xs => ?_⟩
  obtain ⟨hsound, H⟩ := (Books.start now).course F hh xs
  rw [List.nil_append] at H
  refine ⟨map_step_course p d horizon _ xs, hsound, fun id => ⟨(H.once id).1, ?_, (H.created id).1,
    H.balance id⟩⟩
  rintro before y rest hrun hready ⟨z, hz, hdestroy⟩
  have hpos := countP_deletes_pos hsound hrun hready hz hdestroy
  exact le_antisymm (H.once id).1 hpos

/-- A guest is provisioned, looked at, and torn down twice. -/
def twiceTornDown : List Step :=
  [.provision ⟨.record [], "web", "web-1a2"⟩, .get "1000", .destroy "1000", .destroy "1000"]

/-- The guest is deleted by the first teardown.

**Proof sketch.** The settings with their defaults give the usual flows. The steps are found by
evaluation, and the rest is `every_guest_once`. -/
theorem every_guest_once_usual :
    ∃ p d, Guest.provisioner {} [] = .ok p ∧ Guest.dismantler {} [] = .ok d ∧
      (course p d 2 { backend := {} } twiceTornDown).map (Done.deletes "1000") =
        [false, false, true, false] ∧
      (course p d 2 { backend := {} } twiceTornDown).countP (Done.deletes "1000") = 1 := by
  have hread : Config.Settings.read (.record []) = .ok {} := by rfl
  obtain ⟨p, d, hp, hd, H⟩ := every_guest_once hread Guest.provision_seconds_usual
    Guest.teardown_seconds_usual [] []
  obtain rfl : Guest.usualProvisioner = p := Except.ok.inj (Guest.provisioner_usual.symm.trans hp)
  obtain rfl : Guest.usualDismantler = d := Except.ok.inj (Guest.dismantler_usual.symm.trans hd)
  obtain ⟨-, -, honce⟩ := H 0.0 2 le_rfl twiceTornDown
  refine ⟨_, _, hp, hd, by decide +kernel, ?_⟩
  exact (honce "1000").2.1 [] _ _ rfl (by decide +kernel) ⟨_, .tail _ (.head _), step_take ..⟩

end NodeKeeper.Simulated
