import NodeKeeper.Proofs.Node.Teardown
import NodeKeeper.Proofs.Provider.Listing

/-!
# The moment of a removal

A teardown removes secondary resources one after the other, while others use the same cache. Once a
removal is answered, its cache entry is dropped at once, before anybody else takes a turn. So there
is a moment, right behind every key pair that was removed, at which the cache is what the others
have left of it, less the entry of the group.

## Main definitions

* `Network.sourceAmid` — the secondary resources of a network, while others use the cache.
* `Network.Removing`, `Dismantler.Removal` — how one removal goes, alone and within a teardown.
* `Dismantler.Cleared` — the world right behind a removal.
* `Dismantler.remainder` — what is left of a teardown once its node is gone.

## Main results

* `Dismantler.exists_removal` — the moment of a removal, among other removals.
* `Dismantler.until_destroy` — a teardown removes nothing until its node is gone and its secondary
  resources are listed.
* `Dismantler.exists_moment` — the moment of a removal in a teardown.

## Implementation notes

Others may use the cache whenever the teardown waits. The teardown itself looks at the cache only
when it drops an entry; hence what others do is gathered at the end of each removal.
-/

namespace NodeKeeper

open NodeKeeper.Flow (Meets Until)

variable {σ : Type}

namespace Network

/-- The secondary resources of a network, while others use the cache: what they have made of it by
the time that a removal is answered. -/
def sourceAmid (n : Network) (env : Surroundings σ) (others : World σ → Option ResourceCache) :
    OrphanSource (World σ) where
  list := n.list env
  remove ref := do
    n.remove env ref
    Flow.change fun w => { w with cache := others w }

variable {n : Network} {env : Surroundings σ} {ref : OrphanRef} {w : World σ}

/-- How a removal goes: it fails, without a call or with one that fails; or it makes one call, which
succeeds. -/
inductive Removing (ref : OrphanRef) (w : World σ) : Ending Unit → World σ → Prop
  | failed {f : Fault} {w' : World σ} {tr : List Happening} (hw : w'.history = w.history ++ tr)
      (htr : ∀ h ∈ tr, h.fault? ≠ none) : Removing ref w (.raised f) w'
  | removed {c : Call} {a : c.Answer} {w' : World σ}
      (hw : w'.history = w.history ++ [.called c (.ok a)])
      (hc : ∀ i, c = .deleteKeyPair i → ref.kind = keyPairKind ∧ ref.id = i) :
      Removing ref w (.returned ()) w'

/-- Removing a resource from the network is one call of its kind, or none if there is no such kind;
and it says so in its ending.

**Proof sketch.** The cases are those of the kind: each of the three has one call of its own, and
any other kind has none. -/
lemma removing (n : Network) (env : Surroundings σ) (ref : OrphanRef) (w : World σ) :
    Removing ref w (n.remove env ref w).1 (n.remove env ref w).2 := by
  have hcall (c : Call) (hc : ∀ i, c = .deleteKeyPair i → ref.kind = keyPairKind ∧ ref.id = i)
      (level : Log.Level) (name : String) (fields : List (String × Value)) :
      Removing ref w ((World.perform env c >>= fun _ => World.note level name fields) w).1
        ((World.perform env c >>= fun _ => World.note level name fields) w).2 := by
    have hmeets : (World.perform env c).Meets w.mind fun tr e _ =>
        (∃ f, e = .raised f ∧ tr = [.called c (.error f)]) ∨
          ∃ a, e = .returned a ∧ tr = [.called c (.ok a)] :=
      Meets.perform (fun a => Or.inr ⟨a, rfl, rfl⟩) fun f => Or.inl ⟨f, rfl, rfl⟩
    obtain ⟨tr, htr, hcase⟩ := hmeets w rfl
    rcases hp : World.perform env c w with ⟨e, w'⟩
    rw [hp] at htr hcase
    rcases hcase with ⟨f, rfl, rfl⟩ | ⟨a, rfl, rfl⟩
    · rw [Flow.bind_of_raised hp]
      exact .failed htr (by simp [Happening.fault?])
    · rw [Flow.bind_of_returned hp]
      exact .removed htr hc
  unfold remove
  by_cases hpolicy : ref.kind = policyKind
  · rw [if_pos hpolicy]
    exact hcall (.deletePolicy ref.id) (by simp) _ _ _
  · rw [if_neg hpolicy]
    by_cases hrule : ref.kind = ruleKind
    · rw [if_pos hrule]
      exact hcall (.deleteRule ref.id) (by simp) _ _ _
    · rw [if_neg hrule]
      by_cases hpair : ref.kind = keyPairKind
      · rw [if_pos hpair]
        refine hcall (.deleteKeyPair ref.id) (fun i hi => ⟨hpair, ?_⟩) _ _ _
        exact Call.deleteKeyPair.inj hi
      · rw [if_neg hpair]
        exact .failed (List.append_nil _).symm (by simp)

end Network

namespace Dismantler

open Network (Removing)

variable {d : Dismantler} {n : Network} {env : Surroundings σ}
  {others : World σ → Option ResourceCache} {bound : List (String × Value)}

/-! ## One removal -/

/-- How a removal goes within a teardown: it fails, which is kept or ends the teardown; or it
succeeds, and the cache entry is dropped from what others have made of the cache. -/
inductive Removal (others : World σ → Option ResourceCache) (ref : OrphanRef) (w : World σ) :
    Ending Cleanup → World σ → Prop
  | failed {e : Ending Cleanup} {v : World σ} {tr : List Happening}
      (hv : v.history = w.history ++ tr) (htr : ∀ h ∈ tr, h.fault? ≠ none) :
      Removal others ref w e v
  | removed {so : Cleanup} {c : Call} {a : c.Answer} {u v : World σ}
      (hu : u.history = w.history ++ [.called c (.ok a)])
      (hc : ∀ i, c = .deleteKeyPair i → ref.kind = Network.keyPairKind ∧ ref.id = i)
      (hv : v.history = u.history)
      (hcache : ∀ key, ref.cacheKey = some key →
        v.cache = (others u).map fun c => (c.invalidate key).2) :
      Removal others ref w (.returned so) v

/-- The removal of a resource in a cleanup is that of the network. Right behind the call, the cache
is what the others have made of it, without the key of the resource.

**Proof sketch.** The resource is removed from the network as in `removing`. If that failed, nothing
is dropped. If it succeeded, the others may do what they like to the cache before the key is
dropped, which is the first thing that happens next. -/
lemma removal (n : Network) (env : Surroundings σ) (others : World σ → Option ResourceCache)
    (bound : List (String × Value)) (ref : OrphanRef) (so : Cleanup) (w : World σ) :
    Removal others ref w (removeOrphan (n.sourceAmid env others) bound ref so w).1
      (removeOrphan (n.sourceAmid env others) bound ref so w).2 := by
  have hremove := n.removing env ref w
  rcases hr : n.remove env ref w with ⟨e, u⟩
  rw [hr] at hremove
  cases hremove with
  | @failed f _ tr hw htr =>
    have hfailed : ((n.sourceAmid env others).remove ref).attempt w = (.returned (.error f), u) := by
      have hsource : (n.sourceAmid env others).remove ref w = (.raised f, u) :=
        Flow.bind_of_raised hr
      rw [Flow.attempt, hsource]
    unfold removeOrphan
    rw [Flow.bind_of_returned hfailed]
    dsimp only
    split
    · exact .failed hw htr
    · exact .failed hw htr
  | @removed c a _ hw hc =>
    have hremoved : ((n.sourceAmid env others).remove ref).attempt w =
        (.returned (.ok ()), { u with cache := others u }) := by
      have hsource : (n.sourceAmid env others).remove ref w =
          (.returned (), { u with cache := others u }) := Flow.bind_of_returned hr
      rw [Flow.attempt, hsource]
    unfold removeOrphan
    rw [Flow.bind_of_returned hremoved]
    dsimp only
    cases hkey : ref.cacheKey with
    | none => exact .removed hw hc rfl (by simp [hkey])
    | some key =>
      have hdrop := Meets.dropCached (σ := σ) (m := World.mind { u with cache := others u })
        (P := fun tr e m => tr = [] ∧ e = .returned () ∧
          m.cache = (others u).map fun c => (c.invalidate key).2) key ⟨rfl, rfl, rfl⟩
      obtain ⟨_, hhistory, rfl, hreturned, hcache⟩ := hdrop { u with cache := others u } rfl
      rcases hd : World.dropCached key { u with cache := others u } with ⟨e, v⟩
      rw [hd] at hhistory hreturned hcache
      obtain rfl : e = .returned () := hreturned
      dsimp only
      rw [Flow.bind_of_returned hd]
      refine .removed hw hc ?_ fun key' hkey' => ?_
      · exact hhistory.trans (List.append_nil _)
      · obtain rfl := Option.some.inj (hkey.symm.trans hkey')
        exact hcache

/-! ## Removals one after the other -/

/-- A removal adds to what has happened, and takes nothing away from it. -/
lemma Removal.history_le {ref : OrphanRef} {w v : World σ} {e : Ending Cleanup}
    (h : Removal others ref w e v) : w.history <+: v.history := by
  cases h with
  | failed hv _ => exact ⟨_, hv.symm⟩
  | removed hu _ hv _ => exact ⟨_, (hv.trans hu).symm⟩

/-- So do the removals of any number of resources, one after the other.

**Proof sketch.** Induction on the resources: each removal adds to the history, and what follows it
does so, too. -/
lemma history_le_removeOrphans (n : Network) (env : Surroundings σ)
    (others : World σ → Option ResourceCache) (bound : List (String × Value))
    (refs : List OrphanRef) (so : Cleanup) (w : World σ) :
    w.history <+: (removeOrphans (n.sourceAmid env others) bound refs so w).2.history := by
  induction refs generalizing so w with
  | nil => exact List.prefix_rfl
  | cons ref rest ih =>
    have hfirst := (removal n env others bound ref so w).history_le
    unfold removeOrphans
    rcases hr : removeOrphan (n.sourceAmid env others) bound ref so w with ⟨so' | f | _, v⟩
    · rw [hr] at hfirst
      rw [Flow.bind_of_returned hr]
      exact hfirst.trans (ih so' v)
    · rw [hr] at hfirst
      rw [Flow.bind_of_raised hr]
      exact hfirst
    · rw [hr] at hfirst
      rw [Flow.bind_of_unfinished hr]
      exact hfirst

/-- The world right behind a removal, which was the last thing that happened: the cache is what
others had made of it when the removal was answered, less the key. -/
def Cleared (others : World σ → Option ResourceCache) (key : CacheKey) (h : List Happening)
    (v : World σ) : Prop :=
  v.history = h ∧ ∃ u : World σ, u.history = h ∧
    v.cache = (others u).map fun c => (c.invalidate key).2

/-- **The moment of a removal.** Right behind every key pair that is removed the key is cleared, and
the other secondary resources are still to be removed.

**Proof sketch.** By induction on the references: the key pair was removed by the first one, or by
one of the others. -/
theorem exists_removal {key : CacheKey} {i a : Value} {refs : List OrphanRef}
    (hrefs : ∀ r ∈ refs, r.kind = Network.keyPairKind → r.cacheKey = some key) {so : Cleanup}
    {w : World σ} {before after : List Happening}
    (h : (removeOrphans (n.sourceAmid env others) bound refs so w).2.history =
      w.history ++ (before ++ .called (.deleteKeyPair i) (.ok a) :: after)) :
    ∃ v rest so',
      Cleared others key (w.history ++ (before ++ [.called (.deleteKeyPair i) (.ok a)])) v ∧
      removeOrphans (n.sourceAmid env others) bound refs so w =
        removeOrphans (n.sourceAmid env others) bound rest so' v := by
  induction refs generalizing so w before with
  | nil =>
    have hnone := List.append_cancel_left ((List.append_nil w.history).trans h)
    exact absurd hnone (by simp)
  | cons ref refs ih =>
    have hrest (r) (hr : r ∈ refs) := hrefs r (List.mem_cons_of_mem _ hr)
    have hfirst := removal n env others bound ref so w
    have hgoes : removeOrphans (n.sourceAmid env others) bound (ref :: refs) so w =
      (removeOrphan (n.sourceAmid env others) bound ref so >>=
        removeOrphans (n.sourceAmid env others) bound refs) w := rfl
    rw [hgoes] at h ⊢
    rcases hr : removeOrphan (n.sourceAmid env others) bound ref so w with ⟨so' | f | _, v⟩
    · rw [hr] at hfirst
      rw [Flow.bind_of_returned hr] at h ⊢
      obtain ⟨tr', htr'⟩ := history_le_removeOrphans n env others bound refs so' v
      cases hfirst with
      | @failed _ _ tr hv htr =>
        rw [← htr', hv, List.append_assoc, List.append_cancel_left_eq] at h
        obtain ⟨q, rfl, rfl⟩ := append_cons_cases (p := fun y => y.fault? = none) h htr rfl
        have hlater := ih hrest htr'.symm
        rw [hv] at hlater
        simpa using hlater
      | @removed _ c b u _ hu hc hv hcache =>
        rw [← htr', hv, hu, List.append_assoc, List.append_cancel_left_eq,
          List.singleton_append] at h
        cases before with
        | nil =>
          obtain ⟨hhead, -⟩ := List.cons.inj h
          rw [hhead] at hu
          obtain ⟨rfl, -⟩ := Happening.called.inj hhead
          have hkey := hrefs ref List.mem_cons_self (hc i rfl).1
          exact ⟨v, refs, so', ⟨hv.trans hu, u, hu, hcache key hkey⟩, rfl⟩
        | cons y q =>
          obtain ⟨rfl, rfl⟩ := List.cons.inj h
          have hlater := ih hrest htr'.symm
          rw [hv, hu] at hlater
          simpa using hlater
    all_goals
      rw [hr] at hfirst
      first
        | rw [Flow.bind_of_raised hr] at h
        | rw [Flow.bind_of_unfinished hr] at h
      cases hfirst with
      | failed hv htr =>
        rw [hv, List.append_cancel_left_eq] at h
        exact absurd rfl (htr (.called (.deleteKeyPair i) (.ok a)) (by rw [h]; simp))

/-! ## A whole teardown -/

/-- What is left of a teardown once its node is gone: secondary resources to remove, and the report
on it. -/
def remainder (source : OrphanSource (World σ)) (id : String) (started : Float)
    (rest : List OrphanRef) (so : Cleanup) : Flow (World σ) Dismantled := do
  let so ← removeOrphans source [("resource_id", .text id)] rest so
  let elapsed := (← World.clock) - started
  World.note .info "teardown.done"
    ([("resource_id", .text id)] ++
      [("state", .text TeardownStage.done.word), ("elapsed", .float elapsed),
        ("removed", .int so.removed.length), ("failures", .int so.failures.length)])
  return ⟨id, true, elapsed, so.removed, so.failures, .done⟩

/-- All references to key pairs name the cache entry of the same group.

**Proof sketch.** Policies and rules are of other kinds. The references to key pairs are all made
with the key of the group. -/
lemma cacheKey_of_listed {n : Network} {name : String} {group : String} {refs : List OrphanRef}
    (h : n.Listed name (.returned refs)) (hgroup : n.naming.groupIn? name = some group) :
    ∀ r ∈ refs, r.kind = Network.keyPairKind →
      r.cacheKey = some (.place ⟨n.region, n.naming.sharedName group⟩) := by
  intro r hr hkind
  cases h with
  | bare hfirewall =>
    exact absurd hkind (Network.kind_ne_of_mem_allPolicyRefs hfirewall hr)
  | full hfirewall hgroup' hpairs =>
    obtain rfl := Option.some.inj (hgroup.symm.trans hgroup')
    rcases List.mem_append.1 hr with hr | hr
    · exact absurd hkind (Network.kind_ne_of_mem_allPolicyRefs hfirewall hr)
    · obtain ⟨name, rfl, -⟩ := Network.eq_of_mem_keyPairRefs hpairs hr
      rfl

/-- Listing the resources of a node removes none of them, and what it returns is what is listed for
the name.

**Proof sketch.** The listing is `meets_listed`, and to attempt it only turns a fault into a
value. -/
lemma meets_attempt_list (n : Network) (env : Surroundings σ)
    (others : World σ → Option ResourceCache) (m : World.Mind) (name : String) :
    (((n.sourceAmid env others).list (.text name)).attempt).Meets m fun tr e _ =>
      (∀ h ∈ tr, h.isRemoval = false) ∧
        ∀ refs, e = .returned (.ok refs) → n.Listed name (.returned refs) := by
  refine Meets.attempt ((n.meets_listed env m name).mono fun tr e m' h => ?_)
  cases e with
  | returned refs =>
    refine ⟨h.1, ?_⟩
    rintro _ ⟨⟩
    exact h.2
  | raised f => exact ⟨h.1, by simp⟩
  | unfinished => exact ⟨h.1, by simp⟩

/-- While a node is deleted, no secondary resource is removed. -/
lemma Deleted.isRemoval {id : String} {tr : List Happening} {passed : Prop}
    (H : Deleted d id tr passed) :
    ∀ h ∈ tr, h.isRemoval = false := by
  obtain ⟨out, rest, rfl, hrest⟩ := H.calls
  intro h hh
  rcases List.mem_cons.1 hh with rfl | hh
  · rfl
  · exact Happening.isRemoval_of_isWait (hrest h hh)

/-- **A teardown removes nothing** until its node is gone and its secondary resources are listed;
from then on it removes those that are listed, and reports.

**Proof sketch.** The reads, the drain and the deletion remove nothing, and neither does the
listing. If the listing failed, nothing follows that removes; if it succeeded, what is left is the
`remainder`, and key pairs on the list have the key of the group. -/
theorem until_destroy (d : Dismantler) (n : Network) (env : Surroundings σ)
    (others : World σ → Option ResourceCache) (horizon : Nat) (id : String) {name group : String}
    {w : World σ} (hgroup : n.naming.groupIn? name = some group)
    (hname : ∀ v, (env.answer (.get id) w.backend).1.outcome = .ok v → v.isNull = false →
      d.nameOf v = .ok (.text name)) :
    Until (fun h => h.isRemoval = false)
      (d.destroy env (some (n.sourceAmid env others)) horizon id) w fun out w₁ =>
        ∃ refs, (∀ r ∈ refs, r.kind = Network.keyPairKind →
            r.cacheKey = some (.place ⟨n.region, n.naming.sharedName group⟩)) ∧
          out = remainder (n.sourceAmid env others) id w.now refs {} w₁ := by
  have hget : (World.perform env (.get id)).Meets w.mind fun tr _ _ =>
      ∀ h ∈ tr, h.isRemoval = false :=
    Meets.perform (fun _ => by simp [Happening.isRemoval]) fun _ => by simp [Happening.isRemoval]
  unfold destroy
  refine Until.of_eq Flow.clock_bind_apply rfl (Until.bind hget fun v w₁ hread => ?_)
  dsimp only
  split
  · -- there is no such node
    exact Until.of_meets (Meets.note_bind (Meets.clock_bind fun t => Meets.pure (by simp)))
  · next hv =>
    have hname := hname v (Flow.outcome_of_perform hread) (Bool.eq_false_iff.2 hv)
    refine Until.of_eq (Flow.ofExcept_bind_of_ok hname w₁) rfl ?_
    refine Until.of_eq (Flow.see_bind_apply v) rfl ?_
    refine Until.bind ?_ fun _ w₂ _ => ?_
    · exact (meets_drain_any d env id _ horizon _).mono fun _ _ _ htr h hh =>
        Happening.isRemoval_of_isWait (htr.2 h hh)
    refine Until.bind ?_ fun _ w₃ _ => ?_
    · exact (meets_delete _ _).mono fun _ _ _ hdelete => hdelete.2.isRemoval
    unfold cleanOrphans
    refine Until.of_eq (Flow.bind_assoc_apply w₃) rfl ?_
    refine Until.of_eq (Flow.note_bind_apply _ _ _) rfl ?_
    refine Until.of_eq (Flow.bind_assoc_apply _) rfl ?_
    refine Until.bind ?_ fun out w₄ hlist => ?_
    · exact (meets_attempt_list n env others _ name).mono fun _ _ _ h => h.1
    · cases out with
      | error f =>
        refine Until.of_meets (Meets.bind ?_)
        dsimp only
        split
        · refine Meets.note_bind (Meets.pure ?_)
          exact Meets.clock_bind fun t => Meets.note_bind (Meets.pure (by simp))
        · exact Meets.raise (by simp)
      | ok refs =>
        obtain ⟨_, -, -, hlisted⟩ := meets_attempt_list n env others _ name _ rfl
        rw [hlist] at hlisted
        exact Until.here ⟨refs, cacheKey_of_listed (hlisted refs rfl) hgroup, rfl⟩

/-- The rest of a teardown, from a moment in its cleanup on, adds what the removals that are left
add. The report at the end is no happening. -/
lemma history_remainder (source : OrphanSource (World σ)) (id : String) (started : Float)
    (rest : List OrphanRef) (so : Cleanup) (w : World σ) :
    (remainder source id started rest so w).2.history =
      (removeOrphans source [("resource_id", .text id)] rest so w).2.history := by
  unfold remainder
  rcases hr : removeOrphans source [("resource_id", .text id)] rest so w with ⟨so' | f | _, v⟩
  · rw [Flow.bind_of_returned hr]
    rfl
  · rw [Flow.bind_of_raised hr]
  · rw [Flow.bind_of_unfinished hr]

/-- **The moment of a removal in a teardown.** Right behind every key pair that the teardown of a
node removes, the key of the group in the name of the node is cleared, and the teardown goes on from
there.

**Proof sketch.** Until the resources are listed nothing is removed, so that the removal is one of
the `remainder`. There `exists_removal` finds the point right behind it. -/
theorem exists_moment {d : Dismantler} {n : Network} {env : Surroundings σ}
    {others : World σ → Option ResourceCache} {horizon : Nat} {id name group : String} {w : World σ}
    (hgroup : n.naming.groupIn? name = some group)
    (hname : ∀ v, (env.answer (.get id) w.backend).1.outcome = .ok v → v.isNull = false →
      d.nameOf v = .ok (.text name)) {i a : Value} {before after : List Happening}
    (h : (d.destroy env (some (n.sourceAmid env others)) horizon id w).2.history =
      w.history ++ (before ++ .called (.deleteKeyPair i) (.ok a) :: after)) :
    ∃ v rest so,
      Cleared others (.place ⟨n.region, n.naming.sharedName group⟩)
        (w.history ++ (before ++ [.called (.deleteKeyPair i) (.ok a)])) v ∧
      d.destroy env (some (n.sourceAmid env others)) horizon id w =
        remainder (n.sourceAmid env others) id w.now rest so v := by
  rcases until_destroy d n env others horizon id hgroup hname with
    ⟨tr, htr, hspares⟩ | ⟨tr, w₁, htr, hspares, refs, hrefs, hgoes⟩
  · have hmem : .called (.deleteKeyPair i) (.ok a) ∈ tr := by
      rw [List.append_cancel_left (htr.symm.trans h)]
      simp
    exact absurd (hspares _ hmem) (by simp [Happening.isRemoval])
  · rw [hgoes, history_remainder] at h
    obtain ⟨tr', htr'⟩ := history_le_removeOrphans n env others [("resource_id", .text id)] refs {} w₁
    have hsplit := h
    rw [← htr', htr, List.append_assoc, List.append_cancel_left_eq] at hsplit
    obtain ⟨q, rfl, -⟩ := append_cons_cases (p := fun x => x.isRemoval = true) hsplit
      (fun z hz => by simp [hspares z hz]) rfl
    have h' : (removeOrphans (n.sourceAmid env others) [("resource_id", .text id)] refs {}
        w₁).2.history = w₁.history ++ (q ++ .called (.deleteKeyPair i) (.ok a) :: after) := by
      rw [h, htr]
      simp
    obtain ⟨v, rest, so, hcleared, hrest⟩ := exists_removal hrefs h'
    rw [htr] at hcleared
    refine ⟨v, rest, so, by simpa using hcleared, ?_⟩
    rw [hgoes]
    exact Flow.bind_apply_congr hrest

end Dismantler

end NodeKeeper
