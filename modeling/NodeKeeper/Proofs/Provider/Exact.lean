import Mathlib.Data.List.Forall2
import NodeKeeper.Proofs.Node.Cleanup
import NodeKeeper.Proofs.Provider.Reports

/-!
# Exactly what is listed, and the order of removals

If all that a listing asks for is answered with policies and key pairs, the listing can be written
down: the policies of the node that nobody shares, each in front of its rules, and then the key
pairs of the group, unless it is in use. A teardown removes what is listed in that order, so a rule
is never removed before its policy.

## Main definitions

* `Network.Policy` — a firewall policy.
* `Network.Policy.Describes`, `Network.Policy.IsFor` — what is reported is that policy; it has a
  certain name, and nobody shares it.
* `Network.freeGroup?` — the group of a node whose key pairs go with the node.
* `Network.ownPolicies`, `Network.freedPairs`, `Network.listing` — what is listed with a node.
* `Network.listingCalls`, `Network.Answered` — what is asked for, and that it is answered.
* `Network.removalCall`, `Network.removalsIn` — the call that removes a secondary resource, and all
  such calls among some happenings.
* `Network.Sweeps` — removals make certain calls in their order.

## Main results

* `Network.list_eq_listing` — a listing comes to what is written down, with these calls.
* `Network.meets_removeOrphans` — removals go through the references in their order.
* `Network.listed_and_removed` — what is listed with a node, and in which order it is removed.
-/

namespace NodeKeeper

/-- A document is a certain text, or it is not. -/
instance (v : Value) (s : String) : Decidable (v = .text s) :=
  match v with
  | .text t => decidable_of_iff (t = s) (by simp)
  | .null | .bool _ | .int _ | .float _ | .list _ | .record _ => isFalse (by simp)

/-- Only a text is equal to a text. -/
lemma Value.agrees_text_iff {v : Value} {s : String} : v.agrees (.text s) = true ↔ v = .text s := by
  cases v <;> simp [Value.agrees, Value.agreesLeaf, Value.fraction?]

namespace Naming

/-- The policies of two nodes have different names. -/
lemma policyName_inj {lead a b : String} : policyName lead a = policyName lead b ↔ a = b := by
  rw [← String.toList_inj, ← String.toList_inj]
  simp [policyName, ToString.toString]

end Naming

namespace Network

variable {σ : Type} {n : Network} {env : Surroundings σ} {name policyName group : String}

/-! ## Policies -/

/-- A firewall policy with its rules. -/
structure Policy where
  id : Value
  name : Value
  shared : Value
  rules : List Value

namespace Policy

/-- What is reported is this policy. It need not say its name, or whether it is shared; and if it
has no rules, it may say nothing of them. -/
def Describes (p : Policy) (v : Value) : Prop :=
  ∃ fields, v = .record fields ∧ fields.lookup "id" = some p.id ∧
    (fields.lookup "name").getD .null = p.name ∧ (fields.lookup "shared").getD .null = p.shared ∧
    ((fields.lookup "firewall_rules").getD .null = .null ∧ p.rules = [] ∨
      fields.lookup "firewall_rules" = some (.list p.rules))

/-- The policy has this name and is not shared. -/
def IsFor (p : Policy) (policyName : String) : Prop :=
  p.shared.isTruthy = false ∧ p.name = .text policyName

instance (p : Policy) (policyName : String) : Decidable (p.IsFor policyName) :=
  inferInstanceAs (Decidable (_ ∧ _))

/-- The reference to the policy, and those to its rules. -/
def refs (p : Policy) (policyName : String) : List OrphanRef :=
  { kind := policyKind, id := p.id, name := .text policyName } ::
    p.rules.map fun rule => { kind := ruleKind, id := rule }

variable {p : Policy} {v : Value}

/-- From a description of a policy its secondary resources are read: its rules and the policy itself
if it is for the node, and none if it is not.

**Proof sketch.** The rules are those listed under their field, or none if it is missing or empty.
Then the two tests, on the shared mark and on the name, are those of `IsFor`. -/
lemma Describes.policyRefs (h : p.Describes v) :
    Network.policyRefs policyName v =
      .ok (if p.IsFor policyName then p.refs policyName else []) := by
  obtain ⟨fields, rfl, hid, hname, hshared, hrules⟩ := h
  have hindex : (Value.record fields).index "id" = .ok p.id := by simp [Value.index, hid]
  have helements : (((fields.lookup "firewall_rules").getD .null).orElse (.list [])).elements =
      .ok p.rules := by
    rcases hrules with ⟨hnone, hnil⟩ | hsome
    · rw [hnone, hnil]
      rfl
    · rw [hsome, Option.getD_some, Value.orElse]
      split
      · rfl
      · next hempty =>
        have hnil : p.rules = [] := by simpa [Value.isTruthy] using hempty
        rw [hnil]
        rfl
  unfold Network.policyRefs
  simp only [Value.get, hname, hshared, hindex, helements, bind, Except.bind]
  by_cases hs : p.shared.isTruthy = true
  · rw [if_pos hs, if_neg (by simp [IsFor, hs])]
    rfl
  · rw [if_neg hs]
    by_cases ha : p.name.agrees (.text policyName) = true
    · rw [if_neg (by simp [ha]), if_pos ⟨by simpa using hs, Value.agrees_text_iff.1 ha⟩]
      rfl
    · rw [if_pos (by simpa using ha), if_neg fun h => ha (Value.agrees_text_iff.2 h.2)]
      rfl

end Policy

/-- From descriptions of some policies those resources are read that belong to the policies of the
node, in the order in which the policies were listed.

**Proof sketch.** The induction is on the policies, with `Describes.policyRefs` for each. -/
lemma allPolicyRefs_of_describes {policies : List Policy} {vs : List Value}
    (h : List.Forall₂ Policy.Describes policies vs) :
    allPolicyRefs policyName vs =
      .ok ((policies.filter (·.IsFor policyName)).flatMap (·.refs policyName)) := by
  induction h with
  | nil => rfl
  | @cons p v policies vs hp _ ih =>
    rw [allPolicyRefs, hp.policyRefs, ih]
    by_cases hfor : p.IsFor policyName
    · simp [hfor]
      rfl
    · simp [hfor]
      rfl

/-- The references to the key pairs of a group.

**Proof sketch.** The induction is on the key pairs. Each is named, and referred to if its name
belongs to the group. -/
lemma keyPairRefs_of_named {names : List String} {vs : List Value}
    (h : List.Forall₂ IsKeyPair names vs) :
    n.keyPairRefs group vs =
      .ok ((names.filter (n.naming.belongsTo group)).map (n.keyPairRef group)) := by
  induction h with
  | nil => rfl
  | @cons name v names vs hname _ ih =>
    rw [keyPairRefs, hname.keyPairRef?, ih]
    by_cases hbelongs : n.naming.belongsTo group name = true
    · rw [if_pos hbelongs, List.filter_cons_of_pos hbelongs]
      rfl
    · rw [if_neg hbelongs, List.filter_cons_of_neg hbelongs]
      rfl

/-! ## Listings -/

/-- The group in the name of a node, if its key pairs go with the node: it must not turn out to be
in use, if that is asked. -/
def freeGroup? (n : Network) (name : String) (used : Value) : Option String :=
  (n.naming.groupIn? name).filter fun _ => !(n.asksUse && used.isTruthy)

/-- The policies of a node that nobody shares. -/
def ownPolicies (n : Network) (name : String) (policies : List Policy) : List Policy :=
  policies.filter (·.IsFor (Naming.policyName n.naming.lead name))

/-- The key pairs that go with a node: those that have the shared name of its group or one of its
unique names. -/
def freedPairs (n : Network) (name : String) (used : Value) (keyPairs : List String) :
    List OrphanRef :=
  match n.freeGroup? name used with
  | none => []
  | some group =>
    (keyPairs.filter fun k => k = n.naming.sharedName group ∨ n.naming.groupIn? k = some group).map
      (n.keyPairRef group)

/-- What is listed with a node: its policies, each in front of its rules, and its key pairs. -/
def listing (n : Network) (name : String) (policies : List Policy) (used : Value)
    (keyPairs : List String) : List OrphanRef :=
  (n.ownPolicies name policies).flatMap (·.refs (Naming.policyName n.naming.lead name)) ++
    n.freedPairs name used keyPairs

/-- The calls that a listing takes. -/
def listingCalls (n : Network) (name : String) (used : Value) : List Call :=
  .listPolicies ::
    match n.naming.groupIn? name with
    | none => []
    | some group =>
      (if n.asksUse then [.groupInUse group] else []) ++
        if (n.freeGroup? name used).isSome then [.listKeyPairs] else []

/-- What a listing is answered: policies, whether the group is in use, and the names of key pairs.
What is not asked for need not be answered. -/
structure Answered (n : Network) (env : Surroundings σ) (name : String) (b : σ)
    (policies : List Policy) (used : Value) (keyPairs : List String) : Prop where
  policiesTold : ∃ vs, (env.answer .listPolicies b).1.outcome = .ok (.list vs) ∧
    List.Forall₂ Policy.Describes policies vs
  useTold : ∀ group, n.naming.groupIn? name = some group → n.asksUse = true →
    (env.answer (.groupInUse group) (env.answer .listPolicies b).2).1.outcome = .ok used
  keyPairsTold : ∀ group, n.freeGroup? name used = some group → ∃ vs,
    (env.answer .listKeyPairs
      (n.asked env group (env.answer .listPolicies b).2)).1.outcome = .ok (.list vs) ∧
    List.Forall₂ IsKeyPair keyPairs vs

/-- The calls of a world that has gone on are the ones it had, and those among the happenings that
came to them. -/
lemma calls_append {w w' : World σ} {tr : List Happening} (h : w'.history = w.history ++ tr) :
    w'.calls = w.calls ++ tr.filterMap Happening.call? := by
  rw [World.calls, World.calls, h, List.filterMap_append]

/-- Asking whether the group is in use.

**Proof sketch.** If it can be asked, there is one call, and its answer counts. If not, the group
counts as not in use. -/
lemma inUse_of_answered {used : Value} {w : World σ}
    (h : n.asksUse = true → (env.answer (.groupInUse group) w.backend).1.outcome = .ok used) :
    ∃ w', n.inUse env group w = (.returned (n.asksUse && used.isTruthy), w') ∧
      w'.backend = n.asked env group w.backend ∧
      w'.calls = w.calls ++ if n.asksUse then [.groupInUse group] else [] := by
  unfold inUse asked
  by_cases ha : n.asksUse = true
  · obtain ⟨w', hw', hhistory, hbackend, -⟩ := Flow.perform_of_ok (h ha)
    simp only [ha, if_true, Bool.true_and]
    rw [Flow.bind_of_returned hw']
    exact ⟨w', rfl, hbackend, calls_append hhistory⟩
  · simp only [ha, Bool.false_and]
    exact ⟨w, rfl, rfl, (List.append_nil _).symm⟩

/-- **A listing is what is written down**, and takes these calls.

**Proof sketch.** Every call of the flow is answered, and what is made of the answers does not
fail. -/
theorem list_eq_listing {w : World σ} {policies : List Policy} {used : Value}
    {keyPairs : List String} (H : n.Answered env name w.backend policies used keyPairs) :
    ∃ w', n.list env (.text name) w = (.returned (n.listing name policies used keyPairs), w') ∧
      w'.calls = w.calls ++ n.listingCalls name used := by
  obtain ⟨vs, hpolicies, hshape⟩ := H.policiesTold
  obtain ⟨w₁, h₁, hhistory₁, hb₁, -⟩ := Flow.perform_of_ok hpolicies
  have hcalls₁ : w₁.calls = w.calls ++ [.listPolicies] := calls_append hhistory₁
  have hpolicyList : (Value.list vs).elements = .ok vs := rfl
  have hfirewall : allPolicyRefs (Naming.policyName n.naming.lead (Value.text name).shown) vs =
      .ok _ := allPolicyRefs_of_describes hshape
  have hnode : nameText (.text name) = .ok name := rfl
  unfold list listing freedPairs listingCalls
  rw [Flow.bind_of_returned h₁, Flow.ofExcept_bind_of_ok hpolicyList,
    Flow.ofExcept_bind_of_ok hfirewall, Flow.ofExcept_bind_of_ok hnode]
  cases hgroup : n.naming.groupIn? name with
  | none =>
    have hfree : n.freeGroup? name used = none := by rw [freeGroup?, hgroup]; rfl
    rw [hfree]
    exact ⟨w₁, by rw [List.append_nil]; rfl, hcalls₁⟩
  | some group =>
    have huse (ha : n.asksUse = true) :
        (env.answer (.groupInUse group) w₁.backend).1.outcome = .ok used :=
      hb₁ ▸ H.useTold group hgroup ha
    obtain ⟨w₂, h₂, hb₂, hcalls₂⟩ := inUse_of_answered huse
    have hfree : n.freeGroup? name used =
        if n.asksUse && used.isTruthy then none else some group := by
      rw [freeGroup?, hgroup]
      cases n.asksUse && used.isTruthy <;> rfl
    dsimp only
    rw [Flow.bind_of_returned h₂, hfree]
    by_cases hused : (n.asksUse && used.isTruthy) = true
    · -- the group is in use
      rw [if_pos hused, if_pos hused]
      refine ⟨_, by rw [List.append_nil]; rfl, ?_⟩
      change w₂.calls = _
      rw [hcalls₂, hcalls₁]
      simp
    · rw [if_neg hused, if_neg hused]
      obtain ⟨vs', hpairs, hnamed⟩ := H.keyPairsTold group (hfree.trans (if_neg hused))
      rw [← hb₁, ← hb₂] at hpairs
      obtain ⟨w₃, h₃, hhistory₃, -⟩ := Flow.perform_of_ok hpairs
      have hcalls₃ : w₃.calls = w₂.calls ++ [.listKeyPairs] := calls_append hhistory₃
      have hpairList : (Value.list vs').elements = .ok vs' := rfl
      have hbelongs : keyPairs.filter (n.naming.belongsTo group) = keyPairs.filter fun k =>
          k = n.naming.sharedName group ∨ n.naming.groupIn? k = some group :=
        List.filter_congr fun k _ => by rw [Bool.eq_iff_iff]; simp [Naming.belongsTo]
      rw [Flow.bind_of_returned h₃, Flow.ofExcept_bind_of_ok hpairList,
        Flow.ofExcept_bind_of_ok (keyPairRefs_of_named hnamed), hbelongs]
      refine ⟨w₃, rfl, ?_⟩
      rw [hcalls₃, hcalls₂, hcalls₁]
      simp

/-! ## Removals -/

/-- The call that removes a secondary resource. -/
def removalCall (ref : OrphanRef) : Call :=
  if ref.kind = policyKind then .deletePolicy ref.id
  else if ref.kind = ruleKind then .deleteRule ref.id
  else .deleteKeyPair ref.id

/-- The network can remove the secondary resource. -/
def IsRemovable (ref : OrphanRef) : Prop :=
  ref.kind = policyKind ∨ ref.kind = ruleKind ∨ ref.kind = keyPairKind

/-- The call that removes a secondary resource is a removal, whatever its answer. -/
lemma isRemoval_of_eq {ref : OrphanRef} {c : Call} (hc : removalCall ref = c)
    (out : Except Fault c.Answer) : (Happening.called c out).isRemoval = true := by
  unfold removalCall at hc
  split at hc
  · subst hc
    rfl
  · split at hc <;> subst hc <;> rfl

/-- Removals that were to make certain calls: they made them in that order, up to a fault that
cannot be handled. -/
structure Sweeps {α : Type} (calls : List Call) (tr : List Happening) (e : Ending α) : Prop where
  order : tr.filterMap Happening.call? <+: calls
  isRemoval : ∀ h ∈ tr, h.isRemoval = true
  ending : (∃ a, e = .returned a) ∧ tr.filterMap Happening.call? = calls ∨
    ∃ f, e = .raised f ∧ f.isOrdinary = false

namespace Sweeps

variable {α β : Type} {calls calls' : List Call} {tr tr' : List Happening} {e : Ending β}

/-- If there is nothing to remove, to do nothing will do. -/
lemma nil (a : α) : Sweeps [] [] (.returned a) := ⟨List.prefix_rfl, by simp, .inl ⟨⟨a, rfl⟩, rfl⟩⟩

/-- One removal that was made will do for a list that asks for it alone, if it returned or failed as
a removal may. -/
lemma single {h : Happening} {c : Call} (hc : h.call? = some c) (hr : h.isRemoval = true)
    {e : Ending α} (he : (∃ a, e = .returned a) ∨ ∃ f, e = .raised f ∧ f.isOrdinary = false) :
    Sweeps [c] [h] e := by
  have hcalls : [h].filterMap Happening.call? = [c] := by simp [hc]
  exact ⟨hcalls ▸ List.prefix_rfl, by simpa using hr, he.imp_left fun ha => ⟨ha, hcalls⟩⟩

/-- Two sweeps of which the first came to its end make one. -/
lemma append {a : α} (H : Sweeps calls tr (.returned a)) (H' : Sweeps calls' tr' e) :
    Sweeps (calls ++ calls') (tr ++ tr') e := by
  have hfirst : tr.filterMap Happening.call? = calls :=
    H.ending.elim And.right fun ⟨f, hf, _⟩ => absurd hf (by simp)
  refine ⟨?_, fun h hh => (List.mem_append.1 hh).elim (H.isRemoval h) (H'.isRemoval h), ?_⟩
  · rw [List.filterMap_append, hfirst]
    exact (List.prefix_append_right_inj calls).2 H'.order
  · rw [List.filterMap_append, hfirst]
    exact H'.ending.imp_left fun ⟨ha, hall⟩ => ⟨ha, by rw [hall]⟩

/-- A sweep ends: it has no pause that could be cut off. -/
lemma not_unfinished (H : Sweeps calls tr (.unfinished : Ending α)) : False := by
  obtain ⟨⟨a, ha⟩, -⟩ | ⟨f, hf, -⟩ := H.ending
  · exact absurd ha (by simp)
  · exact absurd hf (by simp)

/-- What was still to be done is of no account once a fault ended it. -/
lemma cut {f : Fault} (H : Sweeps calls tr (.raised f : Ending α)) (calls' : List Call) :
    Sweeps (calls ++ calls') tr (.raised f : Ending β) := by
  refine ⟨H.order.trans (List.prefix_append calls calls'), H.isRemoval, .inr ⟨f, rfl, ?_⟩⟩
  obtain ⟨⟨a, ha⟩, -⟩ | ⟨g, hg, hn⟩ := H.ending
  · exact absurd ha (by simp)
  · exact Ending.raised.inj hg ▸ hn

end Sweeps

open NodeKeeper.Flow (Meets)
open Dismantler (Cleanup removeOrphan removeOrphans cleanOrphans ReachesCleanup)

variable {m : World.Mind} {ref : OrphanRef} {bound : List (String × Value)} {so : Cleanup}

/-- Removing takes one call.

**Proof sketch.** The three kinds are told apart as in `removalCall`, and each is one call and a
note. -/
lemma meets_remove (hr : IsRemovable ref) : (n.remove env ref).Meets m fun tr e _ =>
    ∃ h, tr = [h] ∧ h.call? = some (removalCall ref) ∧ h.isRemoval = true ∧ e ≠ .unfinished := by
  have hcall (c : Call) (hc : removalCall ref = c) (level : Log.Level) (name : String)
      (fields : List (String × Value)) :
      (World.perform env c >>= fun _ => World.note level name fields).Meets m fun tr e _ =>
        ∃ h, tr = [h] ∧ h.call? = some (removalCall ref) ∧ h.isRemoval = true ∧
          e ≠ .unfinished := by
    refine Meets.perform_bind (fun a => Meets.note _ _ _ ?_) fun f => ?_
    · exact ⟨_, rfl, congrArg some hc.symm, isRemoval_of_eq hc _, by simp⟩
    · exact ⟨_, rfl, congrArg some hc.symm, isRemoval_of_eq hc _, by simp⟩
  unfold remove
  by_cases hpolicy : ref.kind = policyKind
  · rw [if_pos hpolicy]
    exact hcall (.deletePolicy ref.id) (by rw [removalCall, if_pos hpolicy]) _ _ _
  · rw [if_neg hpolicy]
    by_cases hrule : ref.kind = ruleKind
    · rw [if_pos hrule]
      exact hcall (.deleteRule ref.id) (by rw [removalCall, if_neg hpolicy, if_pos hrule]) _ _ _
    · have hpair := (hr.resolve_left hpolicy).resolve_left hrule
      rw [if_neg hrule, if_pos hpair]
      exact hcall (.deleteKeyPair ref.id) (by rw [removalCall, if_neg hpolicy, if_neg hrule]) _ _ _

/-- The removal of a secondary resource makes the one call for it. A fault that can be handled is
logged; one that cannot ends the removals.

**Proof sketch.** The removal is attempted, which is the one call by `meets_remove`. Whatever its
end, only notes and the dropping of a cached pair follow, and these are no calls. -/
lemma meets_removeOrphan (hr : IsRemovable ref) :
    (removeOrphan (n.source env) bound ref so).Meets m fun tr e _ =>
      Sweeps [removalCall ref] tr e := by
  unfold removeOrphan
  refine Meets.bind (Meets.attempt ((meets_remove hr).mono ?_))
  rintro _ e m' ⟨h, rfl, hc, hremoval, he⟩
  cases e with
  | unfinished => exact absurd rfl he
  | returned u =>
    have hremoved (b : Cleanup) : Sweeps [removalCall ref] [h] (.returned b) :=
      Sweeps.single hc hremoval (.inl ⟨b, rfl⟩)
    dsimp only
    split
    · exact Meets.bind (Meets.dropCached _ (Meets.note_bind (Meets.pure (hremoved _))))
    · exact Meets.note_bind (Meets.pure (hremoved _))
  | raised f =>
    dsimp only
    split
    · exact Meets.note_bind (Meets.pure (Sweeps.single hc hremoval (.inl ⟨_, rfl⟩)))
    · next ho =>
      exact Meets.raise (Sweeps.single hc hremoval (.inr ⟨f, rfl, Bool.eq_false_iff.2 ho⟩))

/-- **Removals go through the references** in their order, and through nothing else. Only a fault
that cannot be handled ends them early.

**Proof sketch.** The induction is on the references, with `meets_removeOrphan` for the first one.
If it ends the removals, nothing else is called. -/
lemma meets_removeOrphans {refs : List OrphanRef} (hrefs : ∀ ref ∈ refs, IsRemovable ref) :
    (removeOrphans (n.source env) bound refs so).Meets m fun tr e _ =>
      Sweeps (refs.map removalCall) tr e := by
  induction refs generalizing so m with
  | nil => exact Meets.pure (Sweeps.nil so)
  | cons ref refs ih =>
    have hfirst := hrefs ref List.mem_cons_self
    have hrest (r) (hr : r ∈ refs) := hrefs r (List.mem_cons_of_mem _ hr)
    rw [removeOrphans]
    refine Meets.bind ((meets_removeOrphan hfirst).mono fun tr e m' H => ?_)
    cases e with
    | returned so' => exact (ih hrest).mono fun tr' e' m'' H' => H.append H'
    | raised f => exact H.cut (refs.map removalCall)
    | unfinished => exact H.not_unfinished.elim

/-- What is listed for a node is of one of the three kinds that can be removed.

**Proof sketch.** The listing has policies, their rules, and key pairs. -/
lemma isRemovable_of_mem_listing {policies : List Policy} {used : Value} {keyPairs : List String}
    (h : ref ∈ n.listing name policies used keyPairs) : IsRemovable ref := by
  rcases List.mem_append.1 h with h | h
  · obtain ⟨p, -, h⟩ := List.mem_flatMap.1 h
    rcases List.mem_cons.1 h with rfl | h
    · exact .inl rfl
    · obtain ⟨rule, -, rfl⟩ := List.mem_map.1 h
      exact .inr (.inl rfl)
  · unfold freedPairs at h
    split at h
    · exact absurd h List.not_mem_nil
    · obtain ⟨k, -, rfl⟩ := List.mem_map.1 h
      exact .inr (.inr rfl)

/-- The calls that remove a policy and its rules. -/
def Policy.removals (p : Policy) : List Call := .deletePolicy p.id :: p.rules.map .deleteRule

/-- What is listed for a node is removed in this order: the rules of each own policy before the
policy itself, and the key pairs last. -/
lemma map_removalCall_listing {policies : List Policy} {used : Value} {keyPairs : List String} :
    (n.listing name policies used keyPairs).map removalCall =
      (n.ownPolicies name policies).flatMap Policy.removals ++
        (n.freedPairs name used keyPairs).map removalCall := by
  rw [listing, List.map_append, List.map_flatMap]
  refine congrArg (· ++ _) (List.flatMap_congr fun p _ => ?_)
  simp [Policy.refs, Policy.removals, removalCall, policyKind, ruleKind]

/-- The calls among some happenings that remove secondary resources. -/
def removalsIn (tr : List Happening) : List Call :=
  (tr.filter Happening.isRemoval).filterMap Happening.call?

/-- Happenings of which none is a removal have no calls that remove anything. -/
lemma removalsIn_eq_nil {tr : List Happening} (h : ∀ x ∈ tr, x.isRemoval = false) :
    removalsIn tr = [] := by
  rw [removalsIn, List.filter_eq_nil_iff.2 fun x hx => by simp [h x hx]]
  rfl

/-- The removals of two stretches are those of the first one, and then those of the second one. -/
lemma removalsIn_append (a b : List Happening) :
    removalsIn (a ++ b) = removalsIn a ++ removalsIn b := by
  simp [removalsIn]

/-- In a sweep, all that is called is a removal. -/
lemma Sweeps.removalsIn_eq {α : Type} {calls : List Call} {tr : List Happening} {e : Ending α}
    (H : Sweeps calls tr e) : removalsIn tr = tr.filterMap Happening.call? := by
  rw [removalsIn, List.filter_eq_self.2 H.isRemoval]

/-- A cleanup lists first, and then removes what it listed.

**Proof sketch.** The listing has its end by `list_eq_listing`, and removes nothing by
`meets_listed`. What is listed is removable, so the removals are those of `meets_removeOrphans`. -/
lemma cleanOrphans_of_answered (bound : List (String × Value)) {w : World σ}
    {policies : List Policy} {used : Value} {keyPairs : List String}
    (H : n.Answered env name w.backend policies used keyPairs) :
    ∃ listed swept, (cleanOrphans (n.source env) bound (.text name) w).2.history =
        w.history ++ (listed ++ swept) ∧ (∀ h ∈ listed, h.isRemoval = false) ∧
      Sweeps ((n.listing name policies used keyPairs).map removalCall) swept
        (cleanOrphans (n.source env) bound (.text name) w).1 := by
  obtain ⟨w₁, hlist, -⟩ := list_eq_listing (w := w.record _) H
  obtain ⟨listed, hlisted, hspares, -⟩ := n.meets_listed env _ name (w.record _) rfl
  rw [hlist] at hlisted
  have hgoes : cleanOrphans (n.source env) bound (.text name) w =
      removeOrphans (n.source env) bound (n.listing name policies used keyPairs) {} w₁ :=
    (Flow.note_bind_apply _ _ _).trans (Flow.bind_of_returned (Flow.attempt_of_returned hlist))
  have hremoves : (removeOrphans (n.source env) bound (n.listing name policies used keyPairs)
      {}).Meets w₁.mind fun tr e _ =>
        Sweeps ((n.listing name policies used keyPairs).map removalCall) tr e :=
    meets_removeOrphans fun _ hr => isRemovable_of_mem_listing hr
  obtain ⟨swept, hswept, H'⟩ := hremoves w₁ rfl
  rw [hgoes, hswept, hlisted]
  exact ⟨listed, swept, List.append_assoc _ _ _, hspares, H'⟩

/-- Nothing follows the cleanup but a report. -/
lemma exists_cleaned {d : Dismantler} {horizon : Nat} {id : String} {w₀ w : World σ} {v : Value}
    (h : ReachesCleanup d env horizon id w₀ v w) {source : OrphanSource (World σ)} {r : Dismantled}
    (hr : (d.destroy env (some source) horizon id w₀).1 = .returned r) :
    ∃ so, (cleanOrphans source [("resource_id", .text id)] v w).1 = .returned so := by
  obtain ⟨report, hgoes, -⟩ := h.destroy_eq source
  rcases hclean : cleanOrphans source [("resource_id", .text id)] v w with ⟨so | f | _, w'⟩
  · exact ⟨so, rfl⟩
  · rw [hgoes, Flow.bind_of_raised hclean] at hr
    exact absurd hr (by simp)
  · rw [hgoes, Flow.bind_of_unfinished hclean] at hr
    exact absurd hr (by simp)

/-- **What is listed, and in which order it is removed.** Suppose that all that the listing of a
node asks for is answered, with policies, with whether the group in the name is in use, and with key
pairs. The listing then consists of the policies that have the name of the node's policy and are not
shared, each followed by its rules, in the order in which they were reported; and then, if the name
has a group that is free, of the key pairs which have its shared name or one of its unique names,
all with the cache key of the group. Key pairs are asked for if and only if there is such a group.
Nodes of different names have no policy in common. A teardown that lists this removes it in that
order: it makes the removals one after the other, until it has made all of them or a fault ends it
that cannot be handled; so it comes to a rule only behind the policy that the rule is listed under.

**Proof sketch.** The listing is computed (`list_eq_listing`), and removals go through the
references in their order (`meets_removeOrphans`). What a teardown does before removes nothing. -/
theorem listed_and_removed (n : Network) (env : Surroundings σ) (name : String) {w : World σ}
    {policies : List Policy} {used : Value} {keyPairs : List String}
    (H : n.Answered env name w.backend policies used keyPairs) :
    -- what is listed, and what is asked for it
    (∃ w', n.list env (.text name) w = (.returned
        ((n.ownPolicies name policies).flatMap (·.refs (Naming.policyName n.naming.lead name)) ++
          n.freedPairs name used keyPairs), w') ∧
      w'.calls = w.calls ++ n.listingCalls name used ∧
      (.listKeyPairs ∈ n.listingCalls name used ↔ ∃ group, n.freeGroup? name used = some group)) ∧
    -- other nodes
    (∀ other, other ≠ name →
      ∀ p ∈ n.ownPolicies name policies, ∀ q ∈ n.ownPolicies other policies, p ≠ q) ∧
    -- a teardown
    ∀ (d : Dismantler) (horizon : Nat) (id : String) (w₀ : World σ),
      ReachesCleanup d env horizon id w₀ (.text name) w →
      ∃ tr, (d.destroy env (some (n.source env)) horizon id w₀).2.history = w₀.history ++ tr ∧
        removalsIn tr <+: (n.ownPolicies name policies).flatMap Policy.removals ++
          (n.freedPairs name used keyPairs).map removalCall ∧
        ((∃ r, (d.destroy env (some (n.source env)) horizon id w₀).1 = .returned r) →
          removalsIn tr = (n.ownPolicies name policies).flatMap Policy.removals ++
            (n.freedPairs name used keyPairs).map removalCall) ∧
        ∀ before p after rules rule rest, n.ownPolicies name policies = before ++ p :: after →
          p.rules = rules ++ rule :: rest →
          (before.flatMap Policy.removals).length + 1 + rules.length < (removalsIn tr).length →
          before.flatMap Policy.removals ++ .deletePolicy p.id ::
            (rules.map .deleteRule ++ [.deleteRule rule]) <+: removalsIn tr := by
  obtain ⟨w', hlist, hcalls⟩ := list_eq_listing H
  refine ⟨⟨w', hlist, hcalls, ?_⟩, fun other hother p hp q hq hpq => ?_,
    fun d horizon id w₀ hreach => ?_⟩
  · rw [listingCalls, freeGroup?]
    cases n.naming.groupIn? name with
    | none => simp
    | some group => cases n.asksUse <;> cases used.isTruthy <;> simp
  · subst hpq
    have hname := (of_decide_eq_true (List.mem_filter.1 hp).2).2
    have hname' := (of_decide_eq_true (List.mem_filter.1 hq).2).2
    exact hother (Naming.policyName_inj.1 (Value.text.inj (hname'.symm.trans hname)))
  · obtain ⟨waited, hwaited, hspares, -⟩ := hreach.spares (q := fun x => x.isRemoval = false)
      (fun _ hx => Happening.isRemoval_of_isWait hx) fun _ => rfl
    obtain ⟨listed, swept, hhistory, hlisted, hsweeps⟩ :=
      cleanOrphans_of_answered [("resource_id", .text id)] H
    have hmade : removalsIn (waited ++ (listed ++ swept)) = swept.filterMap Happening.call? := by
      rw [removalsIn_append, removalsIn_append, removalsIn_eq_nil hspares,
        removalsIn_eq_nil hlisted, hsweeps.removalsIn_eq]
      rfl
    rw [map_removalCall_listing] at hsweeps
    have hprefix := hsweeps.order
    rw [← hmade] at hprefix
    refine ⟨waited ++ (listed ++ swept), ?_, hprefix, ?_, ?_⟩
    · rw [hreach.history_destroy, hhistory, hwaited, List.append_assoc]
    · rintro ⟨r, hr⟩
      obtain ⟨so, hso⟩ := exists_cleaned hreach hr
      rw [hmade]
      obtain ⟨-, hall⟩ | ⟨f, hf, -⟩ := hsweeps.ending
      · exact hall
      · exact absurd (hso.symm.trans hf) (by simp)
    · intro before p after rules rule rest hown hrules hlength
      refine List.prefix_of_prefix_length_le ?_ hprefix ?_
      · rw [hown, List.flatMap_append, List.flatMap_cons, Policy.removals, hrules]
        simp
      · simp at hlength ⊢
        omega

/-- A region with the usual names, in which it can be asked who uses a group. -/
def attended : Network := { usual with asksUse := true }

/-- The node `nodes-web-1a2` has two policies of its own, one of them without rules. Another one of
that name is shared, and one has a longer name. -/
def filed : List Policy :=
  [⟨.int 1, .text "nodes-fw-policy-nodes-web-1a2", .bool true, [.int 10]⟩,
    ⟨.int 2, .text "nodes-fw-policy-nodes-web-1a2", .bool false, [.int 20, .int 21]⟩,
    ⟨.int 3, .text "nodes-fw-policy-nodes-web-1a23", .bool false, [.int 30]⟩,
    ⟨.int 4, .text "nodes-fw-policy-nodes-web-1a2", .bool false, []⟩]

/-- A policy as it is reported. -/
def Policy.document (p : Policy) : Value :=
  .record [("id", p.id), ("name", p.name), ("shared", p.shared),
    ("firewall_rules", if p.rules.isEmpty then .null else .list p.rules)]

/-- The document of a policy describes it. -/
lemma Policy.describes_document (p : Policy) : p.Describes p.document := by
  refine ⟨_, rfl, rfl, rfl, rfl, ?_⟩
  change ((if p.rules.isEmpty then Value.null else .list p.rules) = .null ∧ p.rules = []) ∨
    some (if p.rules.isEmpty then Value.null else .list p.rules) = some (.list p.rules)
  cases p.rules with
  | nil => exact .inl ⟨rfl, rfl⟩
  | cons rule rest => exact .inr rfl

/-- These policies and the key pairs of these names are reported. Every node is there and can be
deleted, and no group is in use. -/
def office (policies : List Policy) (keyPairs : List String) : Surroundings Unit where
  answer
    | .create _, s | .createImage _ _, s => (⟨none, .ok { id := "" }⟩, s)
    | .listOrphans _, s => (⟨none, .ok []⟩, s)
    | .delete _, s => (⟨none, .ok (.bool true)⟩, s)
    | .get _, s => (⟨none, .ok (.int 0)⟩, s)
    | .listPolicies, s => (⟨none, .ok (.list (policies.map Policy.document))⟩, s)
    | .listKeyPairs, s =>
      (⟨none, .ok (.list (keyPairs.map fun k => .record [("name", .text k)]))⟩, s)
    | .groupInUse _, s => (⟨none, .ok (.bool false)⟩, s)
    | .getImage _, s | .deleteImage _, s | .deleteOrphan _, s | .deletePolicy _, s
    | .deleteRule _, s | .deleteKeyPair _, s => (⟨none, .ok .null⟩, s)
  pause _ s := (none, s)

/-- The office answers as the network would that has these policies and key pairs. -/
lemma answered_office (n : Network) (name : String) (policies : List Policy)
    (keyPairs : List String) :
    n.Answered (office policies keyPairs) name () policies (.bool false) keyPairs := by
  refine ⟨⟨_, rfl, ?_⟩, fun _ _ _ => rfl, fun _ _ => ⟨_, rfl, ?_⟩⟩
  · exact List.forall₂_map_right_iff.2 (List.forall₂_same.2 fun p _ => p.describes_document)
  · exact List.forall₂_map_right_iff.2 (List.forall₂_same.2 fun k _ => ⟨_, rfl, rfl⟩)

/-- The key pairs that are there. -/
def keys : List String := ["nodes-db", "nodes-web", "nodes-web-0f", "nodes-web-x"]

/-- What tears down the node. -/
def clearing : Dismantler where
  pending v := .ok v
  nameOf _ := .ok (.text "nodes-web-1a2")
  isGone _ := .ok true
  timeout := 5.0

/-- The wait until the node has drained. -/
def clearedDrain : Ending Unit × World Unit :=
  clearing.drain (office filed keys) 5 "42" [("resource_id", .text "42")]
    { (World.perform (office filed keys) (.get "42") { backend := () }).2 with seen := .int 0 }

/-- The deletion of the node. -/
def clearedDelete : Ending Unit × World Unit :=
  clearing.delete (office filed keys) "42" 0.0 [("resource_id", .text "42")] clearedDrain.2

/-- The node's own policies are listed and removed, and two of the four key pairs.

**Proof sketch.** The backend answers as it must, and the teardown comes to its cleanup, both by
evaluation. The rest is `listed_and_removed` for this node. -/
theorem listed_and_removed_web :
    attended.Answered (office filed keys) "nodes-web-1a2" clearedDelete.2.backend filed
      (.bool false) keys ∧
    (∃ refs w', attended.list (office filed keys) (.text "nodes-web-1a2") clearedDelete.2 =
        (.returned refs, w') ∧
      refs.map (fun r => (r.kind, r.id.shown)) =
        [("firewall_policy", "2"), ("firewall_rule", "20"), ("firewall_rule", "21"),
          ("firewall_policy", "4"), ("key_pair", "nodes-web"), ("key_pair", "nodes-web-0f")]) ∧
    ReachesCleanup clearing (office filed keys) 5 "42" { backend := () } (.text "nodes-web-1a2")
      clearedDelete.2 ∧
    ∃ tr, (clearing.destroy (office filed keys) (some (attended.source (office filed keys))) 5 "42"
        { backend := () }).2.history = tr ∧
      removalsIn tr = [.deletePolicy (.int 2), .deleteRule (.int 20), .deleteRule (.int 21),
        .deletePolicy (.int 4), .deleteKeyPair (.text "nodes-web"),
        .deleteKeyPair (.text "nodes-web-0f")] := by
  have H : attended.Answered (office filed keys) "nodes-web-1a2" clearedDelete.2.backend filed
      (.bool false) keys := answered_office attended "nodes-web-1a2" filed keys
  have hdrain : clearedDrain.1.result? = some () := by decide +kernel
  have hdelete : clearedDelete.1.result? = some () := by decide +kernel
  have hreach : ReachesCleanup clearing (office filed keys) 5 "42" { backend := () }
      (.text "nodes-web-1a2") clearedDelete.2 :=
    .intro (v := .int 0) rfl rfl rfl (Prod.ext (Ending.eq_returned_of_result? hdrain) rfl)
      (Prod.ext (Ending.eq_returned_of_result? hdelete) rfl)
  have hreturned : (clearing.destroy (office filed keys)
      (some (attended.source (office filed keys))) 5 "42" { backend := () }).1.result?.isSome =
        true := by decide +kernel
  obtain ⟨r, hr⟩ := Option.isSome_iff_exists.1 hreturned
  obtain ⟨⟨w', hlist, -⟩, -, hteardown⟩ := listed_and_removed attended (office filed keys)
    "nodes-web-1a2" H
  obtain ⟨tr, htr, -, hall, -⟩ := hteardown clearing 5 "42" { backend := () } hreach
  refine ⟨H, ⟨_, w', hlist, by decide +kernel⟩, hreach, tr, by simpa using htr, ?_⟩
  rw [hall ⟨r, Ending.eq_returned_of_result? hr⟩]
  rfl

end Network

end NodeKeeper
