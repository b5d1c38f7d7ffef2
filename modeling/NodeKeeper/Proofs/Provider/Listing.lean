import NodeKeeper.Proofs.Flow.Meets
import NodeKeeper.Proofs.Naming.Recognition
import NodeKeeper.Proofs.Node.Happenings
import NodeKeeper.Provider.Network
import NodeKeeper.Provider.Scripted

/-!
# What is listed with a node

The key pairs that go with the last node of a group are found by their names alone. Names of
different groups can be the same text: the shared name of a group `web-1a2` is also a unique name of
the group `web`. Apart from these clashes the key pairs of other groups are never listed.

## Main definitions

* `Network.keyPairRef` — the reference to a key pair of a group.
* `Network.NamesGroup` — a reference to a key pair names one of a group.
* `Network.Listed` — what a listing comes to.
* `Network.ListsGroup` — all references of a listing name key pairs of the group.

## Main results

* `Network.eq_of_mem_keyPairRefs` — the key pairs that are found have names of the group.
* `Network.meets_listed` — every listing comes to that, and removes nothing.
* `Network.meets_list` — a key pair is listed with a node only if its name belongs to the group of
  the node.
* `Network.list_spares_other_groups` — the key pairs of another group are listed only if their names
  are names of the node's group as well.
* `Network.list_touches_other_group` — and then they are.
-/

namespace NodeKeeper.Network

open NodeKeeper.Naming (IsGroup IsSuffixText)

variable {σ : Type} {n : Network} {group : String} {refs : List OrphanRef} {r : OrphanRef}

/-- The reference to a key pair of a group. -/
def keyPairRef (n : Network) (group name : String) : OrphanRef where
  kind := keyPairKind
  id := .text name
  name := .text name
  cacheKey := some (.place ⟨n.region, n.naming.sharedName group⟩)

/-- If the reference is to a key pair, the key pair is known by a name that belongs to the group. -/
def NamesGroup (n : Network) (group : String) (r : OrphanRef) : Prop :=
  r.kind = keyPairKind →
    ∃ name, r.id = .text name ∧ r.name = .text name ∧ n.naming.belongsTo group name = true

/-! ## What references are made of -/

/-- A policy is not taken for a key pair. -/
lemma policyKind_ne : policyKind ≠ keyPairKind := by decide

/-- A rule is not taken for a key pair. -/
lemma ruleKind_ne : ruleKind ≠ keyPairKind := by decide

/-- What is made of a policy are references to a policy and to rules.

**Proof sketch.** There are references only if all readings succeed, and then the first one is to
the policy itself and the others are to its rules. -/
lemma kind_ne_of_mem_policyRefs {policyName : String} {policy : Value}
    (h : policyRefs policyName policy = .ok refs) (hr : r ∈ refs) : r.kind ≠ keyPairKind := by
  obtain ⟨shared, -, h⟩ := exists_of_bind_eq_ok h
  split at h
  · obtain rfl := Except.ok.inj h
    exact absurd hr List.not_mem_nil
  · obtain ⟨name, -, h⟩ := exists_of_bind_eq_ok h
    split at h
    · obtain rfl := Except.ok.inj h
      exact absurd hr List.not_mem_nil
    · obtain ⟨id, -, h⟩ := exists_of_bind_eq_ok h
      obtain ⟨rules, -, h⟩ := exists_of_bind_eq_ok h
      obtain ⟨rules, -, h⟩ := exists_of_bind_eq_ok h
      obtain rfl := Except.ok.inj h
      rcases List.mem_cons.1 hr with rfl | hr
      · exact policyKind_ne
      · obtain ⟨rule, -, rfl⟩ := List.mem_map.1 hr
        exact ruleKind_ne

/-- Among the resources that are read from policies there are no key pairs.

**Proof sketch.** The induction is on the policies, with `kind_ne_of_mem_policyRefs` for each. -/
lemma kind_ne_of_mem_allPolicyRefs {policyName : String} {policies : List Value}
    (h : allPolicyRefs policyName policies = .ok refs) (hr : r ∈ refs) :
    r.kind ≠ keyPairKind := by
  induction policies generalizing refs with
  | nil =>
    obtain rfl := Except.ok.inj h
    exact absurd hr List.not_mem_nil
  | cons policy rest ih =>
    obtain ⟨first, hfirst, h⟩ := exists_of_bind_eq_ok h
    obtain ⟨others, hothers, h⟩ := exists_of_bind_eq_ok h
    obtain rfl := Except.ok.inj h
    rcases List.mem_append.1 hr with hr | hr
    · exact kind_ne_of_mem_policyRefs hfirst hr
    · exact ih hothers hr

/-- What is made of a key pair refers to it by its name, if that belongs to the group. -/
lemma eq_of_keyPairRef? {pair : Value} (h : n.keyPairRef? group pair = .ok (some r)) :
    ∃ name, r = n.keyPairRef group name ∧ n.naming.belongsTo group name = true := by
  obtain ⟨value, -, h⟩ := exists_of_bind_eq_ok h
  obtain ⟨name, -, h⟩ := exists_of_bind_eq_ok h
  split at h
  · next hbelongs =>
    obtain rfl := Option.some.inj (Except.ok.inj h)
    exact ⟨name, rfl, hbelongs⟩
  · exact absurd (Except.ok.inj h) (by simp)

/-- The resources that are read from a list of key pairs are references to key pairs whose names
belong to the group.

**Proof sketch.** The induction is on the key pairs, with `eq_of_keyPairRef?` for each. -/
lemma eq_of_mem_keyPairRefs {pairs : List Value} (h : n.keyPairRefs group pairs = .ok refs)
    (hr : r ∈ refs) : ∃ name, r = n.keyPairRef group name ∧ n.naming.belongsTo group name = true := by
  induction pairs generalizing refs with
  | nil =>
    obtain rfl := Except.ok.inj h
    exact absurd hr List.not_mem_nil
  | cons pair rest ih =>
    obtain ⟨found, hfound, h⟩ := exists_of_bind_eq_ok h
    obtain ⟨others, hothers, h⟩ := exists_of_bind_eq_ok h
    obtain rfl := Except.ok.inj h
    rcases List.mem_append.1 hr with hr | hr
    · obtain rfl := Option.mem_toList.1 hr
      exact eq_of_keyPairRef? hfound
    · exact ih hothers hr

/-- The key pairs that are found have names of the group. -/
lemma namesGroup_of_mem_keyPairRefs {pairs : List Value} (h : n.keyPairRefs group pairs = .ok refs)
    (hr : r ∈ refs) : n.NamesGroup group r := by
  obtain ⟨name, rfl, hbelongs⟩ := eq_of_mem_keyPairRefs h hr
  exact fun _ => ⟨name, rfl, rfl, hbelongs⟩

/-! ## Listings -/

/-- The listing of a node names key pairs of the group in the name of the node only, if it comes to
an end. -/
def ListsGroup (n : Network) (name : String) (e : Ending (List OrphanRef)) : Prop :=
  ∀ refs, e = .returned refs → ∀ r ∈ refs, ∀ group, n.naming.groupIn? name = some group →
    n.NamesGroup group r

/-- What a listing comes to, by the name of the node: it fails; or it ends with references to
policies and rules, perhaps followed by those to the key pairs of the group in the name. -/
inductive Listed (n : Network) (name : String) : Ending (List OrphanRef) → Prop
  | failed (f : Fault) : Listed n name (.raised f)
  | bare {policyName : String} {policies : List Value} {firewall : List OrphanRef}
      (hfirewall : allPolicyRefs policyName policies = .ok firewall) :
      Listed n name (.returned firewall)
  | full {policyName : String} {policies : List Value} {firewall : List OrphanRef} {group : String}
      {pairs : List Value} {keyPairs : List OrphanRef}
      (hfirewall : allPolicyRefs policyName policies = .ok firewall)
      (hgroup : n.naming.groupIn? name = some group)
      (hpairs : n.keyPairRefs group pairs = .ok keyPairs) :
      Listed n name (.returned (firewall ++ keyPairs))

/-- Asking whether a group is in use is a call of its own, if it can be asked. -/
lemma meets_inUse_bind {α : Type} {env : Surroundings σ} {m : World.Mind}
    {f : Bool → Flow (World σ) α} {P : Flow.Condition α}
    (hf : ∀ b tr, (∀ h ∈ tr, h.isRemoval = false) → (f b).Meets m fun tr' => P (tr ++ tr'))
    (herror : ∀ g tr, (∀ h ∈ tr, h.isRemoval = false) → P tr (.raised g) m) :
    (n.inUse env group >>= f).Meets m P := by
  have hasks (out : Except Fault Value) :
      ∀ h ∈ [Happening.called (.groupInUse group) out], h.isRemoval = false := by
    simp [Happening.isRemoval]
  unfold inUse
  split
  · refine .bind (.perform_bind (fun a => .pure ?_) fun g => herror g _ (hasks (.error g)))
    exact hf a.isTruthy _ (hasks (.ok a))
  · exact .pure_bind (hf false [] (by simp))

/-- **What a listing comes to.** It removes nothing.

**Proof sketch.** The flow is walked through in its order. Each of its calls may fail, and each
answer may be unreadable, which both end the listing; otherwise the steps are those of the two
constructors that list something. -/
theorem meets_listed (n : Network) (env : Surroundings σ) (m : World.Mind) (name : String) :
    (n.list env (.text name)).Meets m fun tr e _ =>
      (∀ h ∈ tr, h.isRemoval = false) ∧ n.Listed name e := by
  unfold list
  have hpolicies (out : Except Fault Value) :
      ∀ h ∈ [Happening.called .listPolicies out], h.isRemoval = false := by
    simp [Happening.isRemoval]
  refine .perform_bind (fun policies => ?_) fun g => ⟨hpolicies _, .failed g⟩
  refine .ofExcept_bind (fun policies _ => ?_) fun g _ => ⟨hpolicies _, .failed g⟩
  refine .ofExcept_bind (fun firewall hfirewall => ?_) fun g _ => ⟨hpolicies _, .failed g⟩
  refine .ofExcept_bind (fun text htext => ?_) fun g _ => ⟨hpolicies _, .failed g⟩
  obtain rfl : name = text := Except.ok.inj htext
  split
  · exact .pure ⟨hpolicies _, .bare hfirewall⟩
  · next group hgroup =>
    refine meets_inUse_bind (fun used tr htr => ?_) fun g tr htr => ⟨?_, .failed g⟩
    · -- whatever was asked before removes nothing
      have hspares {out : Except Fault Value} {tr' : List Happening}
          (htr' : ∀ h ∈ tr', h.isRemoval = false) :
          ∀ h ∈ Happening.called .listPolicies out :: (tr ++ tr'), h.isRemoval = false := by
        intro h hh
        rcases List.mem_cons.1 hh with rfl | hh
        · rfl
        · exact (List.mem_append.1 hh).elim (htr h) (htr' h)
      have hpairs (out : Except Fault Value) :
          ∀ h ∈ [Happening.called .listKeyPairs out], h.isRemoval = false := by
        simp [Happening.isRemoval]
      split
      · exact .note_bind (.pure ⟨hspares (by simp), .bare hfirewall⟩)
      · refine .perform_bind (fun pairs => ?_) fun g => ⟨hspares (hpairs _), .failed g⟩
        refine .ofExcept_bind (fun pairs _ => ?_) fun g _ => ⟨hspares (hpairs _), .failed g⟩
        refine .ofExcept_bind (fun keyPairs hkeyPairs => ?_) fun g _ =>
          ⟨hspares (hpairs _), .failed g⟩
        exact .pure ⟨hspares (hpairs _), .full hfirewall hgroup hkeyPairs⟩
    · intro h hh
      rcases List.mem_cons.1 hh with rfl | hh
      · rfl
      · exact htr h hh

/-- **What is listed.** A key pair is listed with a node only if its name belongs to the group in
the name of the node.

**Proof sketch.** By `meets_listed` there are three cases. In the one with key pairs these are of
the group that was found in the name. -/
theorem meets_list (n : Network) (env : Surroundings σ) (m : World.Mind) (name : String) :
    (n.list env (.text name)).Meets m fun _ e _ => n.ListsGroup name e := by
  refine (n.meets_listed env m name).mono fun _ e _ ⟨_, hlisted⟩ => ?_
  cases hlisted with
  | failed f => exact fun _ he => nomatch he
  | bare hfirewall =>
    rintro _ ⟨⟩ r hr group -
    exact fun hkind => absurd hkind (kind_ne_of_mem_allPolicyRefs hfirewall hr)
  | full hfirewall hgroup hpairs =>
    rintro _ ⟨⟩ r hr group' hgroup'
    obtain rfl := Option.some.inj (hgroup.symm.trans hgroup')
    rcases List.mem_append.1 hr with hr | hr
    · exact fun hkind => absurd hkind (kind_ne_of_mem_allPolicyRefs hfirewall hr)
    · exact namesGroup_of_mem_keyPairRefs hpairs hr

/-! ## Other groups -/

section Groups

variable {g h s t : String}

/-- A dash is no part of a suffix. -/
lemma marked_of_dash {c : Naming} (hd : c.delimiter = "-") : c.Marked := by
  rw [Naming.Marked, hd]
  exact ⟨'-', by decide, by decide⟩

/-- **Other groups are spared.** With a dash between the parts of a name, what is listed with a node
of one group names a key pair of another group only if the two groups share that name: if the shared
name of the one is a unique name of the other.

**Proof sketch.** Both equivalences are those of `Naming`, with the dash as the delimiter. What is
listed of key pairs belongs to the group by `meets_list`, so the equivalences apply to it. -/
theorem list_spares_other_groups (n : Network) (hd : n.naming.delimiter = "-") (hg : IsGroup g)
    (hh : IsGroup h) (hne : g ≠ h) (hs : IsSuffixText s) (ht : IsSuffixText t) :
    (n.naming.belongsTo g (n.naming.sharedName h) = true ↔
      ∃ u, IsSuffixText u ∧ h = g ++ "-" ++ u) ∧
    (n.naming.belongsTo g (n.naming.nameFor h t) = true ↔ g = h ++ "-" ++ t) ∧
    ∀ (env : Surroundings σ) (w w' : World σ) (refs : List OrphanRef),
      n.list env (.text (n.naming.nameFor g s)) w = (.returned refs, w') →
      ∀ r ∈ refs, r.kind = keyPairKind → r.id = r.name ∧
        (r.name = .text (n.naming.sharedName h) → ∃ u, IsSuffixText u ∧ h = g ++ "-" ++ u) ∧
        (r.name = .text (n.naming.nameFor h t) → g = h ++ "-" ++ t) := by
  have hc := marked_of_dash hd
  have hshared := Naming.belongsTo_sharedName_iff hc hg hh hne
  have hunique := Naming.belongsTo_nameFor_iff hc hne ht
  rw [hd] at hshared hunique
  refine ⟨hshared, hunique, fun env w w' refs hlist r hr hkind => ?_⟩
  obtain ⟨_, -, hlists⟩ := n.meets_list env w.mind (n.naming.nameFor g s) w rfl
  rw [hlist] at hlists
  have hgroup : n.naming.groupIn? (n.naming.nameFor g s) = some g :=
    (Naming.groupIn?_eq_some_iff hc).2 ⟨hg, s, hs, .inl rfl⟩
  obtain ⟨name, hid, hname, hbelongs⟩ := hlists refs rfl r hr g hgroup hkind
  refine ⟨hid.trans hname.symm, fun he => ?_, fun he => ?_⟩
  · rw [hname, Value.text.injEq] at he
    rw [he] at hbelongs
    exact hshared.1 hbelongs
  · rw [hname, Value.text.injEq] at he
    rw [he] at hbelongs
    exact hunique.1 hbelongs

end Groups

/-- A region with the usual names, in which nobody can be asked who uses a group. -/
def usual : Network := ⟨"RegionOne", {}, false⟩

/-- A region in which there are key pairs of these names. -/
def holding (names : List String) : World Script :=
  { backend :=
      { keyPairs := ⟨none, .ok (.list (names.map fun s => .record [("name", .text s)]))⟩ } }

/-- The key pair of the group `web` is listed with its last node, and that of the group `db` is
not.

**Proof sketch.** The listing is found by evaluation. That the pair of `db` is spared is
`list_spares_other_groups`: its name does not begin with that of `web`. -/
theorem list_spares_db :
    ∃ refs w', usual.list Script.surroundings (.text (usual.naming.nameFor "web" "0"))
        (holding ["nodes-db", "nodes-web"]) = (.returned refs, w') ∧
      refs.map (fun r => r.name.shown) = ["nodes-web"] ∧
      ∀ r ∈ refs, r.kind = keyPairKind → r.name ≠ .text (usual.naming.sharedName "db") := by
  refine ⟨[⟨keyPairKind, .text "nodes-web", .text "nodes-web",
    some (.place ⟨"RegionOne", "nodes-web"⟩)⟩], _, rfl, rfl, fun r hr hkind hname => ?_⟩
  have hspared := list_spares_other_groups (σ := Script) (g := "web") (h := "db") (s := "0")
    (t := "1a2") usual rfl (by decide) (by decide) (by decide) (by decide) (by decide)
  obtain ⟨u, -, hu⟩ := (hspared.2.2 Script.surroundings (holding ["nodes-db", "nodes-web"]) _ _ rfl
    r hr hkind).2.1 hname
  have hstart := congrArg (fun text : String => text.toList.head?) hu
  exact absurd hstart (by simp)

/-- The last node of the group `web` takes the key pair of the group `web-1a2` for one of its own
group, and the last node of that group takes one of the group `web` for its own. -/
theorem list_touches_other_group :
    IsGroup "web" ∧ IsGroup "web-1a2" ∧ "web" ≠ "web-1a2" ∧ IsSuffixText "0" ∧
    IsSuffixText "1a2" ∧
    usual.naming.belongsTo "web" (usual.naming.sharedName "web-1a2") = true ∧
    usual.naming.belongsTo "web-1a2" (usual.naming.nameFor "web" "1a2") = true ∧
    ∃ refs w', usual.list Script.surroundings (.text (usual.naming.nameFor "web" "0"))
        (holding ["nodes-web-1a2"]) = (.returned refs, w') ∧
      ∃ r ∈ refs, r.kind = keyPairKind ∧ r.name = .text (usual.naming.sharedName "web-1a2") := by
  refine ⟨by decide, by decide, by decide, by decide, by decide, by decide, by decide,
    [⟨keyPairKind, .text "nodes-web-1a2", .text "nodes-web-1a2",
      some (.place ⟨"RegionOne", "nodes-web"⟩)⟩], _, rfl, ?_⟩
  exact ⟨_, List.mem_singleton_self _, rfl, rfl⟩

end NodeKeeper.Network
