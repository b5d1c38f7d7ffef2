import NodeKeeper.Proofs.Provider.Listing

/-!
# Listings of what is reported

If all that a listing asks for is answered, and what is reported has the shape that is documented,
the listing comes to an end and misses nothing: every key pair with a name of the group is among the
references, unless the group is in use.

## Main definitions

* `Network.IsPolicy`, `Network.IsKeyPair` — what is reported has the shape of a policy, or of a key
  pair of some name.
* `Network.Reports` — what a listing is answered in a state of the surroundings.

## Main results

* `Network.list_of_reports` — such a listing misses no key pair of the group.
-/

namespace NodeKeeper.Network

variable {σ : Type} {n : Network} {env : Surroundings σ} {group name : String}

/-! ## What is reported -/

/-- A policy is a record with an identifier, and with a list of rules if it has any. -/
def IsPolicy (v : Value) : Prop :=
  ∃ fields id, v = .record fields ∧ fields.lookup "id" = some id ∧
    (((fields.lookup "firewall_rules").getD .null).isTruthy = false ∨
      ∃ rules, fields.lookup "firewall_rules" = some (.list rules))

/-- A key pair is a record with a name; it can have the empty name by having none. -/
def IsKeyPair (name : String) (v : Value) : Prop :=
  ∃ fields, v = .record fields ∧ (fields.lookup "name").getD (.text "") = .text name

/-- Every policy can be read.

**Proof sketch.** Of a policy the fields that must be there are there, and the rules are a list or
missing. -/
lemma IsPolicy.exists_refs {v : Value} (h : IsPolicy v) (policyName : String) :
    ∃ refs, policyRefs policyName v = .ok refs := by
  obtain ⟨fields, id, rfl, hid, hrules⟩ := h
  have hindex : (Value.record fields).index "id" = .ok id := by simp [Value.index, hid]
  obtain ⟨rules, hrules⟩ : ∃ rules, (((fields.lookup "firewall_rules").getD .null).orElse
      (.list [])).elements = .ok rules := by
    rcases hrules with hnone | ⟨rules, hsome⟩
    · exact ⟨[], by simp [Value.orElse, hnone, Value.elements]⟩
    · rw [hsome, Option.getD_some, Value.orElse]
      split
      · exact ⟨rules, rfl⟩
      · exact ⟨[], rfl⟩
  unfold policyRefs
  simp only [Value.get, bind, Except.bind, hindex, hrules]
  split
  · exact ⟨_, rfl⟩
  · split <;> exact ⟨_, rfl⟩

/-- The resources of policies can be read from a report that lists nothing but policies. -/
lemma exists_allPolicyRefs {policies : List Value} (h : ∀ v ∈ policies, IsPolicy v)
    (policyName : String) : ∃ refs, allPolicyRefs policyName policies = .ok refs := by
  induction policies with
  | nil => exact ⟨[], rfl⟩
  | cons v rest ih =>
    obtain ⟨refs, hrefs⟩ := (h v List.mem_cons_self).exists_refs policyName
    obtain ⟨others, hothers⟩ := ih fun u hu => h u (List.mem_cons_of_mem _ hu)
    refine ⟨refs ++ others, ?_⟩
    rw [allPolicyRefs, hrefs, hothers]
    rfl

/-- A key pair is referred to if its name belongs to the group. -/
lemma IsKeyPair.keyPairRef? {v : Value} (h : IsKeyPair name v) :
    n.keyPairRef? group v =
      .ok (if n.naming.belongsTo group name then some (n.keyPairRef group name) else none) := by
  obtain ⟨fields, rfl, hname⟩ := h
  unfold Network.keyPairRef?
  simp only [hname, nameText, bind, Except.bind]
  split <;> rfl

/-- None of the key pairs whose names belong to the group is missed.

**Proof sketch.** The induction is on the key pairs. The first one is named, so it is either
referred to or does not belong to the group. -/
lemma exists_keyPairRefs {pairs : List Value} (h : ∀ v ∈ pairs, ∃ name, IsKeyPair name v) :
    ∃ refs, n.keyPairRefs group pairs = .ok refs ∧
      ∀ v ∈ pairs, ∀ name, IsKeyPair name v → n.naming.belongsTo group name = true →
        n.keyPairRef group name ∈ refs := by
  induction pairs with
  | nil => exact ⟨[], rfl, by simp⟩
  | cons v rest ih =>
    obtain ⟨refs, hrefs, hmem⟩ := ih fun u hu => h u (List.mem_cons_of_mem _ hu)
    obtain ⟨first, hfirst⟩ := h v List.mem_cons_self
    have href : n.keyPairRef? group v =
        .ok (if n.naming.belongsTo group first then some (n.keyPairRef group first) else none) :=
      hfirst.keyPairRef?
    refine ⟨_, by rw [keyPairRefs, href, hrefs]; rfl, fun u hu name hname hbelongs => ?_⟩
    rcases List.mem_cons.1 hu with rfl | hu
    · have hfound := Except.ok.inj (hname.keyPairRef?.symm.trans href)
      rw [if_pos hbelongs] at hfound
      rw [← hfound]
      exact List.mem_append_left _ (by simp)
    · exact List.mem_append_right _ (hmem u hu name hname hbelongs)

/-! ## Listings -/

/-- The state of the surroundings after it was asked if the group is in use, if that can be
asked. -/
def asked (n : Network) (env : Surroundings σ) (group : String) (b : σ) : σ :=
  if n.asksUse then (env.answer (.groupInUse group) b).2 else b

/-- What a listing is answered: policies, that the group is not in use, and key pairs. -/
structure Reports (n : Network) (env : Surroundings σ) (group : String) (b : σ)
    (pairs : List Value) : Prop where
  policies : ∃ policies, (env.answer .listPolicies b).1.outcome = .ok (.list policies) ∧
    ∀ v ∈ policies, IsPolicy v
  unused : n.asksUse = true → ∃ v,
    (env.answer (.groupInUse group) (env.answer .listPolicies b).2).1.outcome = .ok v ∧
      v.isTruthy = false
  keyPairs : (env.answer .listKeyPairs
    (n.asked env group (env.answer .listPolicies b).2)).1.outcome = .ok (.list pairs)
  named : ∀ v ∈ pairs, ∃ name, IsKeyPair name v

/-- The group turns out not to be in use.

**Proof sketch.** If it can be asked, there is one call, and its answer is not true. If not, nothing
is asked. -/
lemma inUse_of_unused {w : World σ}
    (h : n.asksUse = true → ∃ v, (env.answer (.groupInUse group) w.backend).1.outcome = .ok v ∧
      v.isTruthy = false) :
    ∃ w', n.inUse env group w = (.returned false, w') ∧
      w'.backend = n.asked env group w.backend := by
  unfold inUse asked
  by_cases ha : n.asksUse = true
  · obtain ⟨v, hv, hfalse⟩ := h ha
    obtain ⟨w', hw', -, hbackend, -⟩ := Flow.perform_of_ok hv
    rw [if_pos ha, if_pos ha, Flow.bind_of_returned hw', hfalse]
    exact ⟨w', rfl, hbackend⟩
  · rw [if_neg ha, if_neg ha]
    exact ⟨w, rfl, rfl⟩

/-- **A listing misses nothing.** It comes to an end, and every key pair that is reported under a
name of the group is among the references.

**Proof sketch.** All that is asked for is answered: the policies, the use of the group and the key
pairs, in this order. The state that the backend has come to is followed from call to call. -/
theorem list_of_reports {node : String} (hgroup : n.naming.groupIn? node = some group) {w : World σ}
    {pairs : List Value} (H : n.Reports env group w.backend pairs) :
    ∃ refs w', n.list env (.text node) w = (.returned refs, w') ∧
      ∀ v ∈ pairs, ∀ name, IsKeyPair name v → n.naming.belongsTo group name = true →
        n.keyPairRef group name ∈ refs := by
  obtain ⟨policies, hpolicies, hshape⟩ := H.policies
  obtain ⟨w₁, h₁, -, hb₁, -⟩ := Flow.perform_of_ok hpolicies
  obtain ⟨firewall, hfirewall⟩ :=
    exists_allPolicyRefs hshape (Naming.policyName n.naming.lead (Value.text node).shown)
  obtain ⟨w₂, h₂, hb₂⟩ : ∃ w₂, n.inUse env group w₁ = (.returned false, w₂) ∧
      w₂.backend = n.asked env group w₁.backend :=
    inUse_of_unused (by rw [hb₁]; exact H.unused)
  have hpairs : (env.answer .listKeyPairs w₂.backend).1.outcome = .ok (.list pairs) := by
    rw [hb₂, hb₁]
    exact H.keyPairs
  obtain ⟨w₃, h₃, -⟩ := Flow.perform_of_ok hpairs
  obtain ⟨refs, hrefs, hmem⟩ : ∃ refs, n.keyPairRefs group pairs = .ok refs ∧
      ∀ v ∈ pairs, ∀ name, IsKeyPair name v → n.naming.belongsTo group name = true →
        n.keyPairRef group name ∈ refs := exists_keyPairRefs H.named
  refine ⟨firewall ++ refs, w₃, ?_, fun v hv name hname hbelongs => ?_⟩
  · have hpolicyList : (Value.list policies).elements = .ok policies := rfl
    have hnode : nameText (.text node) = .ok node := rfl
    have hpairList : (Value.list pairs).elements = .ok pairs := rfl
    unfold list
    rw [Flow.bind_of_returned h₁, Flow.ofExcept_bind_of_ok hpolicyList,
      Flow.ofExcept_bind_of_ok hfirewall, Flow.ofExcept_bind_of_ok hnode, hgroup]
    dsimp only
    rw [Flow.bind_of_returned h₂, if_neg Bool.false_ne_true, Flow.bind_of_returned h₃,
      Flow.ofExcept_bind_of_ok hpairList, Flow.ofExcept_bind_of_ok hrefs]
    rfl
  · exact List.mem_append_right _ (hmem v hv name hname hbelongs)

end NodeKeeper.Network
