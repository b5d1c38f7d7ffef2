import NodeKeeper.Proofs.Node.Teardown

/-!
# Tearing down twice

A teardown that deleted its node ends with a read that shows the node gone, and a second teardown
starts with a read as well. The two are not held to the same test: the first one asks the provider
whether the node is gone, the second one whether anything was found at all. So a second teardown has
nothing to do if nothing was found; if something was found that only counts as gone, it starts over.

## Main definitions

* `Dismantler.Stays` — a node is found in one state, again and again.

## Main results

* `Dismantler.exists_of_destroy` — what a teardown with a result went through.
* `Dismantler.destroy_again` — a second teardown does nothing but read the node if the first one
  ended with nothing found, and never says so otherwise.
* `Dismantler.destroy_again_deletes` — a node that was found in a state that counts as gone is
  deleted twice.
-/

namespace NodeKeeper.Dismantler

open NodeKeeper.Flow (Meets)

variable {σ : Type} {d : Dismantler} {env : Surroundings σ} {id : String} {v : Value}
  {P : σ → Prop} {source : Option (OrphanSource (World σ))} {horizon : Nat}

/-! ## What a teardown went through -/

/-- **A teardown with a result** found no node, or it waited until the node had drained, deleted it,
and cleaned up after it.

**Proof sketch.** Follow the flow backwards from its result: each phase must have returned, by
`exists_of_bind_returned`. -/
theorem exists_of_destroy {w w' : World σ} {r : Dismantled}
    (h : d.destroy env source horizon id w = (.returned r, w')) :
    (∃ v w₁, World.perform env (.get id) w = (.returned v, w₁) ∧ v.isNull = true ∧
        r.deleted = false) ∨
      r.deleted = true ∧ ∃ v name w₁ w₂ w₃,
        World.perform env (.get id) w = (.returned v, w₁) ∧ v.isNull = false ∧
        d.drain env horizon id [("resource_id", .text id)] { w₁ with seen := v } =
          (.returned (), w₂) ∧
        d.delete env id w.now [("resource_id", .text id)] w₂ = (.returned (), w₃) ∧
        (source = none → w'.history = w₃.history) ∧
        ∀ s, source = some s → ∃ so w₄,
          cleanOrphans s [("resource_id", .text id)] name w₃ = (.returned so, w₄) ∧
          w'.history = w₄.history ∧ r.removed = so.removed ∧ r.failures = so.failures := by
  unfold destroy at h
  rw [Flow.clock_bind_apply] at h
  obtain ⟨v, w₁, hread, h⟩ := Flow.exists_of_bind_returned h
  dsimp only at h
  split at h
  · next hv =>
    refine Or.inl ⟨v, w₁, hread, hv, ?_⟩
    rw [← Ending.returned.inj (congrArg Prod.fst h)]
  · next hv =>
    replace hv : v.isNull = false := Bool.eq_false_iff.2 hv
    obtain ⟨name, w₁', hname, h⟩ := Flow.exists_of_bind_returned h
    obtain rfl : w₁ = w₁' := by
      cases hn : d.nameOf v with
      | ok n =>
        rw [hn] at hname
        exact congrArg Prod.snd hname
      | error g =>
        rw [hn] at hname
        exact absurd (congrArg Prod.fst hname) (by simp [Flow.ofExcept, Flow.raise])
    rw [Flow.see_bind_apply] at h
    obtain ⟨_, w₂, hdrain, h⟩ := Flow.exists_of_bind_returned h
    obtain ⟨_, w₃, hdelete, h⟩ := Flow.exists_of_bind_returned h
    refine Or.inr ?_
    cases source with
    | none =>
      obtain rfl := Ending.returned.inj (congrArg Prod.fst h)
      exact ⟨rfl, v, name, w₁, w₂, w₃, hread, hv, hdrain, hdelete,
        fun _ => (congrArg (fun p => p.2.history) h).symm, by simp⟩
    | some s =>
      obtain ⟨so, w₄, hclean, h⟩ := Flow.exists_of_bind_returned h
      obtain rfl := Ending.returned.inj (congrArg Prod.fst h)
      refine ⟨rfl, v, name, w₁, w₂, w₃, hread, hv, hdrain, hdelete, by simp, ?_⟩
      rintro _ ⟨⟩
      exact ⟨so, w₄, hclean, (congrArg (fun p => p.2.history) h).symm, rfl, rfl⟩

/-! ## A node that stays what it is -/

/-- In certain states of the surroundings, whoever reads the node finds the same, again and again.
-/
structure Stays (env : Surroundings σ) (id : String) (v : Value) (P : σ → Prop) : Prop where
  found : ∀ b, P b → (env.answer (.get id) b).1.outcome = .ok v
  again : ∀ b, P b → P (env.answer (.get id) b).2

namespace Stays

variable {w : World σ}

/-- A node that stays as it is can be read at any time: its state is returned, and it stays so. -/
lemma read (H : Stays env id v P) (hw : P w.backend) :
    ∃ w', World.perform env (.get id) w = (.returned v, w') ∧
      w'.history = w.history ++ [.called (.get id) (.ok v)] ∧ P w'.backend ∧ w'.mind = w.mind := by
  obtain ⟨w', hread, hhistory, hbackend, hmind⟩ := Flow.perform_of_ok (H.found _ hw)
  exact ⟨w', hread, hhistory, hbackend ▸ H.again _ hw, hmind⟩

/-- If nothing is found, the teardown is over. -/
lemma destroy_of_absent (H : Stays env id v P) (hv : v.isNull = true)
    (source : Option (OrphanSource (World σ))) (horizon : Nat) (hw : P w.backend) :
    (∃ t, (d.destroy env source horizon id w).1 =
        .returned { id, deleted := false, elapsed := t }) ∧
      (d.destroy env source horizon id w).2.history =
        w.history ++ [.called (.get id) (.ok v)] ∧
      (d.destroy env source horizon id w).2.cache = w.cache := by
  obtain ⟨w₁, hread, hhistory, -, hmind⟩ := H.read hw
  unfold destroy
  rw [Flow.clock_bind_apply, Flow.bind_of_returned hread, if_pos hv]
  exact ⟨⟨_, rfl⟩, hhistory, congrArg World.Mind.cache hmind⟩

/-- If something is found, the teardown never says that there was nothing to delete. -/
lemma deleted_of_present (H : Stays env id v P) (hv : v.isNull = false) (hw : P w.backend)
    {r : Dismantled} (hr : (d.destroy env source horizon id w).1 = .returned r) :
    r.deleted = true := by
  obtain ⟨w₁, hread, -⟩ := H.read hw
  rcases exists_of_destroy (Prod.ext hr rfl) with ⟨v', w₁', hread', hnull, -⟩ | ⟨hdeleted, -⟩
  · obtain rfl : v = v' := Ending.returned.inj (congrArg Prod.fst (hread.symm.trans hread'))
    exact absurd (hv.symm.trans hnull) Bool.false_ne_true
  · exact hdeleted

/-- If what is found has no operations pending, one read is all that the drain phase takes.

**Proof sketch.** The first check reads the node, finds nothing pending and passes; so the wait ends
with it. -/
lemma drain_of_present (H : Stays env id v P) (hv : v.isNull = false) {n : Value}
    (hpending : d.pending v = .ok n) (hn : n.agrees (.int 0) = true)
    (hbounds : ¬ d.timeout ≤ 0 ∧ ¬ d.period ≤ 0) (horizon : Nat) (bound : List (String × Value))
    (hw : P w.backend) :
    ∃ w', d.drain env horizon id bound w = (.returned (), w') ∧
      w'.history = w.history ++ [.called (.get id) (.ok v)] := by
  unfold drain
  rw [Flow.note_bind_apply]
  obtain ⟨w₁, hread, hhistory, -, -⟩ := H.read (w := w.record ⟨.debug, "teardown.draining",
    bound ++ [("state", .text TeardownStage.draining.word), ("timeout", .float d.timeout)]⟩) hw
  have hcheck : d.drainedCheck env id (w.record ⟨.debug, "teardown.draining",
      bound ++ [("state", .text TeardownStage.draining.word), ("timeout", .float d.timeout)]⟩) =
        (.returned true, { w₁ with seen := v }) := by
    unfold drainedCheck
    rw [Flow.bind_of_returned hread, if_neg (by simp [hv]), hpending]
    show (Ending.returned (n.agrees (.int 0)), _) = _
    rw [hn]
  obtain ⟨o, w₂, hpoll, hready, hsame⟩ := Poll.poll_of_passed env hbounds horizon hcheck
    (s := ⟨d.period, d.timeout, d.transient, s!"drain:{id}"⟩)
  rw [Flow.bind_of_returned hpoll, if_pos hready]
  exact ⟨_, rfl, hsame.trans hhistory⟩

/-- If what is found has a name and no operations pending, it is deleted after two reads.

**Proof sketch.** After the first read and the drain, which takes one more, the deletion is called
for, whatever it comes to. What follows adds to the history, and does not change this beginning. -/
lemma deletes_of_present (H : Stays env id v P) (hv : v.isNull = false)
    (hs : ∀ s ∈ source, s = .direct env) {name n : Value} (hname : d.nameOf v = .ok name)
    (hpending : d.pending v = .ok n) (hn : n.agrees (.int 0) = true)
    (hbounds : ¬ d.timeout ≤ 0 ∧ ¬ d.period ≤ 0) (hw : P w.backend) :
    ∃ out rest, (d.destroy env source horizon id w).2.history = w.history ++
      .called (.get id) (.ok v) :: .called (.get id) (.ok v) :: .called (.delete id) out :: rest := by
  obtain ⟨w₁, hread, hhistory, hw₁, -⟩ := H.read hw
  obtain ⟨w₂, hdrain, hhistory'⟩ := drain_of_present H hv hpending hn hbounds horizon
    [("resource_id", .text id)] (w := { w₁ with seen := v }) hw₁
  have hdestroy := (destroy_of_read source horizon hread hv hname).trans (Flow.bind_of_returned hdrain)
  have hrest (m : World.Mind) : (windUp source w.now id name).Meets m fun _ _ _ => True := by
    unfold windUp
    cases source with
    | none => exact Meets.pure_bind (Meets.clock_bind fun t => Meets.note_bind (Meets.pure trivial))
    | some s =>
      obtain rfl := hs s rfl
      refine Meets.bind ((meets_cleanOrphans _ name).mono fun tr e m' _ => ?_)
      cases e with
      | returned so => exact Meets.clock_bind fun t => Meets.note_bind (Meets.pure trivial)
      | raised g => trivial
      | unfinished => trivial
  -- from here on, the teardown is the deletion and what follows it
  have hdelete : (d.delete env id w.now [("resource_id", .text id)] >>= fun _ =>
      windUp source w.now id name).Meets w₂.mind
      fun tr _ _ => ∃ out after, tr = .called (.delete id) out :: after := by
    refine Meets.bind ((meets_delete w.now _).mono fun tr e m' hdelete => ?_)
    obtain ⟨out, after, rfl, -⟩ := hdelete.2.calls
    cases e with
    | returned _ => exact (hrest m').mono fun tr' _ _ _ => ⟨out, after ++ tr', rfl⟩
    | raised g => exact ⟨out, after, rfl⟩
    | unfinished => exact ⟨out, after, rfl⟩
  obtain ⟨_, htr, out, after, rfl⟩ := hdelete w₂ rfl
  exact ⟨out, after, by rw [hdestroy, htr, hhistory', hhistory]; simp⟩

end Stays

/-! ## The second teardown -/

/-- **Tearing down twice.** A teardown that deleted its node did so by a deletion that was accepted,
followed by a read that the provider takes for a sign that the node is gone; secondary resources
were touched after that read only. Let the node stay what that read found. If that was nothing, then
a second teardown, with any secondary resources and at any time, reads the node once and does
nothing else: no deletion, no secondary resource, no change of the cache; and it says that it is
done and that nothing was deleted. If something was found, then no second teardown says so; and as
soon as what was found has a name and no operations pending, the second teardown deletes the node
again.

**Proof sketch.** The result of the first teardown shows which path it took. The second teardown is
followed from its first read on. -/
theorem destroy_again (d : Dismantler) (env : Surroundings σ)
    (source : Option (OrphanSource (World σ))) (horizon : Nat) (id : String) {w w' : World σ}
    {r : Dismantled} (hr : d.destroy env source horizon id w = (.returned r, w'))
    (hdeleted : r.deleted = true) :
    ∃ before a v w₁,
      -- the read that shows that the node is gone
      w₁.history = w.history ++ before ++
        [.called (.delete id) (.ok a), .called (.get id) (.ok v)] ∧
      a.isTruthy = true ∧ d.isGone v = .ok true ∧
      (source = none → w'.history = w₁.history) ∧
      (∀ s, source = some s → ∃ name so w₂,
        cleanOrphans s [("resource_id", .text id)] name w₁ = (.returned so, w₂) ∧
        w'.history = w₂.history ∧ r.removed = so.removed ∧ r.failures = so.failures) ∧
      -- the second teardown
      ∀ P, Stays env id v P → ∀ (source' : Option (OrphanSource (World σ))) (horizon' : Nat)
        (u : World σ), P u.backend →
        (v.isNull = true →
          (∃ t, (d.destroy env source' horizon' id u).1 =
            .returned { id, deleted := false, elapsed := t }) ∧
          (d.destroy env source' horizon' id u).2.history =
            u.history ++ [.called (.get id) (.ok v)] ∧
          (d.destroy env source' horizon' id u).2.cache = u.cache) ∧
        (v.isNull = false →
          (∀ r', (d.destroy env source' horizon' id u).1 = .returned r' → r'.deleted = true) ∧
          ∀ name n, (∀ s ∈ source', s = .direct env) → d.nameOf v = .ok name →
            d.pending v = .ok n → n.agrees (.int 0) = true → ¬ d.timeout ≤ 0 → ¬ d.period ≤ 0 →
            ∃ out rest, (d.destroy env source' horizon' id u).2.history = u.history ++
              .called (.get id) (.ok v) :: .called (.get id) (.ok v) ::
                .called (.delete id) out :: rest) := by
  rcases exists_of_destroy hr with ⟨-, -, -, -, hkept⟩ |
    ⟨-, v₀, name, w₁, w₂, w₃, hread, -, hdrain, hdelete, hnone, hsome⟩
  · exact absurd (hdeleted.symm.trans hkept) (by simp)
  have hget : (World.perform env (.get id)).Meets w.mind fun _ _ _ => True :=
    Meets.perform (fun _ => trivial) fun _ => trivial
  obtain ⟨tr, htr, -⟩ := hget w rfl
  obtain ⟨tr', htr', -⟩ := meets_drain_any d env id _ horizon [("resource_id", .text id)]
    { w₁ with seen := v₀ } rfl
  obtain ⟨tr'', htr'', -, hgone⟩ := meets_delete w.now [("resource_id", .text id)] w₂ rfl
  rw [hread] at htr
  rw [hdrain] at htr'
  rw [hdelete] at htr'' hgone
  obtain ⟨a, v, rfl, ha, hv⟩ := hgone.gone rfl
  refine ⟨tr ++ tr', a, v, w₃, ?_, ha, hv, hnone, ?_, ?_⟩
  · rw [htr'', htr', htr]
    simp
  · intro s hs
    obtain ⟨so, w₄, hclean, hlast⟩ := hsome s hs
    exact ⟨name, so, w₄, hclean, hlast⟩
  · intro P H source' horizon' u hu
    refine ⟨fun hnull => H.destroy_of_absent hnull source' horizon' hu, fun hpresent => ⟨?_, ?_⟩⟩
    · exact fun r' hr' => H.deleted_of_present hpresent hu hr'
    · intro name n hs hname hpending hn htimeout hperiod
      exact H.deletes_of_present hpresent hs hname hpending hn ⟨htimeout, hperiod⟩ hu

/-- A node whose state is a word. It counts as gone if the word says so, even if it is still found.
-/
def labelled : Dismantler where
  pending _ := .ok (.int 0)
  nameOf _ := .ok (.text "node")
  isGone v := .ok (v.isNull || v.agrees (.text "deleted"))
  timeout := 5.0

/-- Surroundings with one node. Once it was deleted, what is left of it is found. -/
def keeping (rest : Value) : Surroundings Bool where
  answer
    | .get _, deleted | .getImage _, deleted =>
      (⟨none, .ok (if deleted then rest else .text "active")⟩, deleted)
    | .delete _, _ | .deleteImage _, _ => (⟨none, .ok (.bool true)⟩, true)
    | .create _, deleted | .createImage _ _, deleted => (⟨none, .ok { id := "node-1" }⟩, deleted)
    | .listOrphans _, deleted => (⟨none, .ok []⟩, deleted)
    | .deleteOrphan _, deleted | .listPolicies, deleted | .listKeyPairs, deleted
    | .groupInUse _, deleted | .deletePolicy _, deleted | .deleteRule _, deleted
    | .deleteKeyPair _, deleted => (⟨none, .ok .null⟩, deleted)
  pause _ deleted := (none, deleted)

/-- What is left of a deleted node stays what it is. -/
lemma stays_keeping (id : String) (rest : Value) :
    Stays (keeping rest) id rest fun deleted => deleted = true := by
  constructor
  · rintro _ rfl
    rfl
  · rintro _ rfl
    rfl

/-- One teardown of such a node. -/
def labelledOnce (rest : Value) : Ending Dismantled × World Bool :=
  labelled.destroy (keeping rest) none 5 "node-1" { backend := false }

/-- One more teardown of such a node. -/
def labelledTwice (rest : Value) : Ending Dismantled × World Bool :=
  labelled.destroy (keeping rest) none 5 "node-1" (labelledOnce rest).2

/-- A node of which nothing is left is only read by the second teardown.

**Proof sketch.** The theorem is applied to a teardown that has a result. What it saw last was null,
so that the first clause for a second teardown applies. -/
theorem destroy_again_labelled :
    ∃ r, (labelledOnce .null).1 = .returned r ∧ r.deleted = true ∧
      (∃ t, (labelledTwice .null).1 =
        .returned { id := "node-1", deleted := false, elapsed := t }) ∧
      (labelledTwice .null).2.history =
        (labelledOnce .null).2.history ++ [.called (.get "node-1") (.ok .null)] := by
  have hreturned : (labelledOnce .null).1.result?.any (·.deleted) = true := by decide +kernel
  have hlast : ((labelledOnce .null).2.history.getLast?.bind Happening.read?).any Value.isNull =
      true := by decide +kernel
  obtain ⟨r, hresult, hdeleted⟩ := (Option.any_eq_true _ _).1 hreturned
  have hr : labelledOnce .null = (.returned r, (labelledOnce .null).2) :=
    Prod.ext (Ending.eq_returned_of_result? hresult) rfl
  obtain ⟨before, a, v, w₁, hw₁, -, -, hnone, -, hagain⟩ := destroy_again labelled
    (keeping .null) none 5 "node-1" hr hdeleted
  have hv : v.isNull = true := by
    rw [hnone rfl, hw₁, List.append_cons, List.getLast?_concat] at hlast
    exact hlast
  obtain rfl : v = .null := by cases v <;> first | rfl | exact absurd hv Bool.false_ne_true
  obtain ⟨hresult', hhistory, -⟩ := (hagain _ (stays_keeping _ _) none 5 (labelledOnce .null).2
    (by decide +kernel)).1 rfl
  exact ⟨r, Ending.eq_returned_of_result? hresult, hdeleted, hresult', hhistory⟩

/-- **A second teardown can delete again.** The first one ended because the word said that the node
was gone, and the node stays what it was then. The second one finds a node, and deletes it. -/
theorem destroy_again_deletes :
    (labelledOnce (.text "deleted")).1.result?.any (·.deleted) = true ∧
      ((labelledOnce (.text "deleted")).2.history.filter Happening.isDelete).length = 1 ∧
      labelled.isGone (.text "deleted") = .ok true ∧
      Stays (keeping (.text "deleted")) "node-1" (.text "deleted") (fun deleted => deleted = true) ∧
      (labelledOnce (.text "deleted")).2.backend = true ∧
      (labelledTwice (.text "deleted")).1.result?.any (·.deleted) = true ∧
      ((labelledTwice (.text "deleted")).2.history.filter Happening.isDelete).length = 2 :=
  ⟨by decide +kernel, by decide +kernel, rfl, stays_keeping _ _, by decide +kernel,
    by decide +kernel, by decide +kernel⟩

end NodeKeeper.Dismantler
