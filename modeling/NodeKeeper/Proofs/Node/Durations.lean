import NodeKeeper.Proofs.Node.Image
import NodeKeeper.Proofs.Node.Provision

/-!
# Mistaken durations

A wait refuses a time limit or a pause that is not positive. A provisioning and the making of an
image wait only once there is something to wait for, so that such a mistake is found when the
resource has been created already; and since it is not the end of a wait that timed out, the
resource is not taken back. The check that a provisioner comes with rules out such a time limit, and
says nothing about the pause.

## Main results

* `Provisioner.flaw?_settings` — the only flaw that a provisioner can have is its pause.
* `mistake_found_late` — a mistaken duration is found right after the resource was created, and
  leaves it behind; without a mistake the wait starts.
* `mistake_leaks` — a node and an image that are left behind.
-/

namespace NodeKeeper

open NodeKeeper.Flow (Meets)

variable {σ : Type} {env : Surroundings σ} {horizon : Nat} {w : World σ}

/-! ## Nodes -/

namespace Provisioner

variable {p : Provisioner} {req : ProvisionRequest}

/-- What the check of a provisioner leaves to be wrong.

**Proof sketch.** The constructor has refused a timeout of half a second or less, so that only the
period can be wrong. -/
lemma flaw?_settings (hp : p.check = .ok p) (id : String) :
    (p.settings id).flaw? =
      if p.period ≤ 0 then
        some (.badValue s!"period must be positive, got {Decimal.text p.period}")
      else none := by
  have hhalf : ¬ p.timeout ≤ 0.5 := by
    intro hle
    rw [check, if_pos hle] at hp
    exact absurd hp (by simp)
  have htimeout : ¬ p.timeout ≤ 0 := by
    intro hle
    exact hhalf (IsTrans.trans (r := (· ≤ ·)) _ _ _ hle (by decide : (0 : Float) ≤ 0.5))
  unfold Poll.Settings.flaw?
  exact if_neg htimeout

/-- A provisioning that finds a flaw after the node was created ends there. -/
lemma provision_of_flaw {handle : Handle} {w₁ : World σ} {f : Fault}
    (hlaunch : p.launch env req w = (.returned handle, w₁))
    (hflaw : (p.settings handle.id).flaw? = some f) :
    (p.provision env horizon req w).1 = .raised f ∧
      (p.provision env horizon req w).2.history = w₁.history := by
  obtain ⟨w₂, hawait, hhistory, -⟩ := awaitReady_of_poll
    (Poll.poll_of_flaw env (p.readyCheck env handle.id) horizon w₁ hflaw) (boundOf req handle.id)
  unfold provision
  rw [Flow.bind_of_returned hlaunch, Flow.bind_of_raised hawait]
  exact ⟨rfl, hhistory⟩

/-- **A checked provisioner** creates the node first. If its pause is not positive, it says so then;
otherwise the wait starts.

**Proof sketch.** If the creation was refused, there is nothing else. If it was not, the flaw of the
settings is looked for only now, as the wait begins; without one the wait starts where the creation
ended. -/
lemma provision_of_checked (env : Surroundings σ) (horizon : Nat) (hp : p.check = .ok p)
    (req : ProvisionRequest) (w : World σ) :
    ∃ created rest, (p.provision env horizon req w).2.history =
        w.history ++ .called (.create req) created :: rest ∧
      (∀ f, created = .error f → rest = [] ∧
        (p.provision env horizon req w).1 = .raised (refusal req f)) ∧
      ∀ handle, created = .ok handle →
        (p.period ≤ 0 → rest = [] ∧ (p.provision env horizon req w).1 =
          .raised (.badValue s!"period must be positive, got {Decimal.text p.period}")) ∧
        (¬ p.period ≤ 0 → ∃ w₁, p.launch env req w = (.returned handle, w₁) ∧
          World.poll env (p.settings handle.id) (p.readyCheck env handle.id) horizon w₁ =
            Poll.pollFrom (World.instruments env (p.settings handle.id).label)
              (p.settings handle.id) (p.readyCheck env handle.id) w₁.now horizon 0 w₁) := by
  obtain ⟨tr, htr, created, rfl, hcreated⟩ := meets_launch p env req w rfl
  rcases hlaunch : p.launch env req w with ⟨e, w₁⟩
  rw [hlaunch] at htr hcreated
  cases created with
  | error f =>
    obtain ⟨rfl, -⟩ := hcreated
    rw [provision_of_refused hlaunch horizon]
    refine ⟨.error f, [], htr, ?_, by simp⟩
    rintro g ⟨⟩
    exact ⟨rfl, rfl⟩
  | ok handle =>
    obtain ⟨rfl, hmind⟩ := hcreated
    have hflaw := flaw?_settings hp handle.id
    by_cases hperiod : p.period ≤ 0
    · rw [if_pos hperiod] at hflaw
      obtain ⟨hend, hhistory⟩ := provision_of_flaw hlaunch hflaw
      refine ⟨.ok handle, [], hhistory.trans htr, by simp, ?_⟩
      rintro _ ⟨⟩
      exact ⟨fun _ => ⟨rfl, hend⟩, fun h => absurd hperiod h⟩
    · rw [if_neg hperiod] at hflaw
      have hbounds : ¬ p.timeout ≤ 0 ∧ ¬ p.period ≤ 0 :=
        Poll.flaw?_eq_none_iff (s := p.settings handle.id).1 hflaw
      obtain ⟨n, waited, closing, polled, w₂, -, -, -, -, hhistory, -⟩ :=
        provision_of_launched hbounds horizon hlaunch (congrArg World.Mind.seen hmind)
      refine ⟨.ok handle, waited ++ closing, ?_, by simp, ?_⟩
      · rw [hhistory, htr, List.append_assoc]
        rfl
      · rintro _ ⟨⟩
        have hpoll := Poll.poll_of_flawless env (p.readyCheck env handle.id) horizon w₁ hflaw
        exact ⟨fun h => absurd h hperiod, fun _ => ⟨w₁, rfl, hpoll⟩⟩

end Provisioner

/-! ## Images -/

namespace Imager

variable {p : Imager} {source name : String}

/-- **An imager** clones the node first. If its time limit or its pause is not positive, it says so
then; otherwise the wait starts.

**Proof sketch.** As for nodes: the clone is asked for first, and the flaw of the settings is found
when the wait begins. -/
lemma create_of_any (p : Imager) (env : Surroundings σ) (horizon : Nat) (source name : String)
    (w : World σ) :
    ∃ created rest, (p.create env horizon source name w).2.history =
        w.history ++ .called (.createImage source name) created :: rest ∧
      (∀ f, created = .error f → rest = [] ∧
        ∃ g, (p.create env horizon source name w).1 = .raised g) ∧
      ∀ handle, created = .ok handle →
        (∀ f, (p.settings handle).flaw? = some f → rest = [] ∧
          (p.create env horizon source name w).1 = .raised f) ∧
        ((p.settings handle).flaw? = none → ∃ w₁,
          w₁.history = w.history ++ [.called (.createImage source name) created] ∧
          World.poll env (p.settings handle) (p.availableCheck env handle.id) horizon w₁ =
            Poll.pollFrom (World.instruments env (p.settings handle).label)
              (p.settings handle) (p.availableCheck env handle.id) w₁.now horizon 0 w₁) := by
  obtain ⟨tr, htr, created, rfl, hcreated⟩ := meets_clone env source name
    [("source_id", .text source), ("image_name", .text name)] w.mind w rfl
  rcases hclone : clone env source name
    [("source_id", .text source), ("image_name", .text name)] w with ⟨e, w₁⟩
  rw [hclone] at htr hcreated
  cases created with
  | error f =>
    obtain rfl : e = .raised (refusal source name f) := hcreated
    rw [create_of_refused horizon hclone]
    exact ⟨.error f, [], htr, fun _ _ => ⟨rfl, _, rfl⟩, by simp⟩
  | ok handle =>
    obtain rfl : e = .returned handle := hcreated
    obtain ⟨w₂, rest, hcreate, hhistory, -, hrest⟩ := create_of_cloned p horizon hclone
    rw [hcreate]
    cases hflaw : (p.settings handle).flaw? with
    | some f =>
      rw [Flow.bind_of_raised (Poll.poll_of_flaw env _ horizon w₂ hflaw)]
      refine ⟨.ok handle, [], hhistory.trans htr, by simp, ?_⟩
      rintro _ ⟨⟩
      refine ⟨fun g hg => ⟨rfl, ?_⟩, fun hnone => absurd (hflaw.symm.trans hnone) (by simp)⟩
      exact congrArg Ending.raised (Option.some.inj (hflaw.symm.trans hg))
    | none =>
      have hgrows : (World.poll env (p.settings handle) (p.availableCheck env handle.id) horizon >>=
          rest).Meets w₂.mind fun _ _ _ => True := by
        refine Meets.bind ((Poll.meets_poll_any env _ (fun m =>
          (p.meets_availableCheck env handle.id m).mono fun _ _ _ _ => trivial) horizon
          w₂.mind).mono fun tr e m _ => ?_)
        cases e with
        | returned o => exact (hrest o m).mono fun _ _ _ _ => trivial
        | raised f => trivial
        | unfinished => trivial
      obtain ⟨tr', htr', -⟩ := hgrows w₂ rfl
      refine ⟨.ok handle, tr', ?_, by simp, ?_⟩
      · rw [htr', hhistory, htr, List.append_assoc]
        rfl
      · rintro _ ⟨⟩
        refine ⟨fun f hf => absurd (hflaw.symm.trans hf) (by simp), fun _ => ?_⟩
        exact ⟨w₂, hhistory.trans htr, Poll.poll_of_flawless env _ horizon w₂ hflaw⟩

end Imager

/-! ## What becomes of a mistake -/

/-- **Mistaken durations are found too late.** A provisioner that passes its check can still have a
pause that is not positive, and an imager can have any time limit and pause. Whatever the
surroundings answer, the first call is the one that creates the node or the image. If it fails,
nothing else is called, and the durations are not looked at. If it succeeds, a mistaken duration is
reported then, nothing else is called, and what was created is left behind; and if there is no such
mistake, the wait starts, and no duration is ever complained about.

**Proof sketch.** Both flows create and then wait. A wait says what is wrong with its durations
before its first attempt, and neither flow takes back what it created when a fault ends the wait. -/
theorem mistake_found_late (env : Surroundings σ) (horizon : Nat) (w : World σ) :
    -- nodes
    (∀ (p : Provisioner) (req : ProvisionRequest), p.check = .ok p →
      ∃ created rest, (p.provision env horizon req w).2.history =
          w.history ++ .called (.create req) created :: rest ∧
        (∀ f, created = .error f → rest = [] ∧
          (p.provision env horizon req w).1 = .raised (Provisioner.refusal req f)) ∧
        ∀ handle, created = .ok handle →
          (p.period ≤ 0 → rest = [] ∧ (p.provision env horizon req w).1 =
            .raised (.badValue s!"period must be positive, got {Decimal.text p.period}")) ∧
          (¬ p.period ≤ 0 → ∃ w₁, p.launch env req w = (.returned handle, w₁) ∧
            World.poll env (p.settings handle.id) (p.readyCheck env handle.id) horizon w₁ =
              Poll.pollFrom (World.instruments env (p.settings handle.id).label)
                (p.settings handle.id) (p.readyCheck env handle.id) w₁.now horizon 0 w₁)) ∧
    -- images
    ∀ (p : Imager) (source name : String),
      ∃ created rest, (p.create env horizon source name w).2.history =
          w.history ++ .called (.createImage source name) created :: rest ∧
        (∀ f, created = .error f → rest = [] ∧
          ∃ g, (p.create env horizon source name w).1 = .raised g) ∧
        ∀ handle, created = .ok handle →
          (p.timeout ≤ 0 → rest = [] ∧ (p.create env horizon source name w).1 =
            .raised (.badValue s!"timeout must be positive, got {Decimal.text p.timeout}")) ∧
          (¬ p.timeout ≤ 0 → p.period ≤ 0 → rest = [] ∧
            (p.create env horizon source name w).1 =
              .raised (.badValue s!"period must be positive, got {Decimal.text p.period}")) ∧
          (¬ p.timeout ≤ 0 → ¬ p.period ≤ 0 → ∃ w₁,
            w₁.history = w.history ++ [.called (.createImage source name) created] ∧
            World.poll env (p.settings handle) (p.availableCheck env handle.id) horizon w₁ =
              Poll.pollFrom (World.instruments env (p.settings handle).label)
                (p.settings handle) (p.availableCheck env handle.id) w₁.now horizon 0 w₁) := by
  refine ⟨fun p req hp => p.provision_of_checked env horizon hp req w, fun p source name => ?_⟩
  obtain ⟨created, rest, hhistory, hrefused, hcreated⟩ := p.create_of_any env horizon source name w
  refine ⟨created, rest, hhistory, hrefused, fun handle hhandle => ?_⟩
  obtain ⟨hflawed, hflawless⟩ := hcreated handle hhandle
  refine ⟨fun ht => hflawed _ (if_pos ht), fun ht hperiod => hflawed _ ?_, fun ht hperiod => ?_⟩
  · exact (if_neg ht).trans (if_pos hperiod)
  · exact hflawless (Poll.flaw?_eq_none_iff (s := p.settings handle).2 ⟨ht, hperiod⟩)

/-- A provisioner without a pause. -/
def Provisioner.restless : Provisioner := { Provisioner.counting with period := 0.0 }

/-- An imager without a time limit. -/
def Imager.hasty : Imager where
  isAvailable v := .ok (v.agrees (.int 0))
  timeout := 0.0

/-- The provisioning of a node by the provisioner without a pause. -/
def restlessly : Ending Provisioned × World Script :=
  Provisioner.restless.provision Script.surroundings 5 Provisioner.asked
    { backend := Provisioner.eager }

/-- The making of an image by the imager without a time limit. -/
def hastily : Ending Imaged × World Script :=
  Imager.hasty.create Script.surroundings 5 "node-1" "image" { backend := Provisioner.eager }

/-- The node and the image are created first.

**Proof sketch.** The theorem is applied to both. Whether the creation was refused or not, nothing
but the creation is in the history of the node. -/
theorem mistake_found_late_restless :
    Provisioner.restless.check = .ok Provisioner.restless ∧
      (∃ created, restlessly.2.history = [.called (.create Provisioner.asked) created]) ∧
      ∃ created rest, hastily.2.history =
        .called (.createImage "node-1" "image") created :: rest := by
  have hcheck : Provisioner.restless.check = .ok Provisioner.restless := if_neg (by decide)
  obtain ⟨hnodes, himages⟩ := mistake_found_late Script.surroundings 5
    { backend := Provisioner.eager }
  obtain ⟨created, rest, hhistory, hrefused, hcreated⟩ := hnodes _ Provisioner.asked hcheck
  obtain ⟨created', rest', hhistory', -⟩ := himages Imager.hasty "node-1" "image"
  refine ⟨hcheck, ⟨created, ?_⟩, created', rest', hhistory'⟩
  replace hhistory : restlessly.2.history = .called (.create Provisioner.asked) created :: rest :=
    hhistory
  cases created with
  | error f => rw [hhistory, (hrefused f rfl).1]
  | ok handle => rw [hhistory, ((hcreated handle rfl).1 (by decide)).1]

/-- **Mistakes can leave a node and an image behind.** The provisioner passes its check, and an
imager comes with none. The node and the image are created, and all that is said is that a duration
is not positive. -/
theorem mistake_leaks :
    (Provisioner.restless.check = .ok Provisioner.restless ∧
      restlessly.1.fault?.map Fault.message = some "period must be positive, got 0.0" ∧
      ∃ handle, restlessly.2.history = [.called (.create Provisioner.asked) (.ok handle)]) ∧
    hastily.1.fault?.map Fault.message = some "timeout must be positive, got 0.0" ∧
      ∃ handle, hastily.2.history = [.called (.createImage "node-1" "image") (.ok handle)] :=
  ⟨⟨if_neg (by decide), by decide +kernel, _, rfl⟩, by decide +kernel, _, rfl⟩

end NodeKeeper
