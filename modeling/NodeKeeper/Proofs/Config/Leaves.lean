import NodeKeeper.Proofs.Config.Fields

/-!
# Leaves of a configuration

A configuration has sections inside sections. What is read for a leaf, at whatever depth it stands,
is settled by what the document has at its path: its default if there is nothing, however much of
the path there is, and what its own check makes of it otherwise. So leaves do not depend on each
other.

## Main definitions

* `Value.at?` — what a document has at a path.
* `Config.Leaf` — a field of a section at some depth.
* `Config.Leaf.Settled` — a leaf is settled by what stands at its path.
* `Config.Settings.leaves` — the leaves of the whole configuration.

## Main results

* `Config.Settings.settled_of_mem_leaves` — all leaves of a configuration are settled so.
* `Config.Settings.eq_of_leaves` — there is nothing in a configuration but its leaves.
* `Config.Settings.read_compositional` — what a configuration is, and what its problems are.
-/

namespace NodeKeeper

/-- What a document has at a path of names. -/
def Value.at? : List String → Value → Option Value
  | [], v => some v
  | name :: path, v => (v.field? name).bind (at? path)

namespace Config

open Section Setting

variable {σ ρ : Type}

/-! ## Leaves -/

/-- A leaf of a section with results in `σ`. -/
structure Leaf (σ : Type) where
  {ρ : Type}
  /-- The names of the sections around it, from the outside in. -/
  sections : List String
  /-- The innermost of them in the result, if it is there. -/
  of : σ → Option ρ
  field : Field ρ

namespace Leaf

/-- Where a leaf stands in a document. -/
def path (ℓ : Leaf σ) : List String := ℓ.sections ++ [ℓ.field.name]

/-- What a leaf is in the result, if its section is there. -/
def get (ℓ : Leaf σ) (s : σ) : Option ℓ.field.α := (ℓ.of s).map ℓ.field.get

/-- A field of the section itself. -/
def plain (f : Field σ) : Leaf σ := ⟨[], some, f⟩

/-- A leaf of a section inside another one. -/
def under (name : String) (inner : σ → Option ρ) (ℓ : Leaf ρ) : Leaf σ :=
  ⟨name :: ℓ.sections, fun s => (inner s).bind ℓ.of, ℓ.field⟩

/-- What is read for a leaf is settled by what the document has at its path. -/
def Settled (read : Value → Checked σ) (ℓ : Leaf σ) : Prop :=
  ∀ v s, read v = .ok s → ∀ a, ℓ.get s = some a → ℓ.field.own (v.at? ℓ.path) = .ok a

/-- A leaf of a part is found in the settings as a whole by way of the part, if there is one. -/
lemma get_under (name : String) (inner : σ → Option ρ) (ℓ : Leaf ρ) (s : σ) :
    (ℓ.under name inner).get s = (inner s).bind ℓ.get := by
  cases h : inner s <;> simp [get, under, h]

/-- Likewise, the path of a leaf of a part leads through the name of the part, and then on as the
leaf does. -/
lemma at?_path_under (name : String) (inner : σ → Option ρ) (ℓ : Leaf ρ) (v : Value) :
    v.at? (ℓ.under name inner).path = (v.field? name).bind (Value.at? ℓ.path) := rfl

/-- The path of a leaf at the top of a record is its name alone. -/
lemma at?_path_plain (f : Field σ) (fs : List (String × Value)) :
    (Value.record fs).at? (plain f).path = fs.lookup f.name :=
  Option.bind_fun_some _

/-- An empty section has nothing at any leaf. -/
lemma at?_path_nil (ℓ : Leaf σ) : (Value.record []).at? ℓ.path = none := by
  unfold path
  cases ℓ.sections <;> rfl

/-- In null, no path of a leaf leads anywhere. -/
lemma at?_path_null (ℓ : Leaf σ) : Value.null.at? ℓ.path = none := by
  unfold path
  cases ℓ.sections <;> rfl

end Leaf

/-- What is read for a leaf depends on nothing but what stands at its path. -/
lemma Leaf.Settled.eq {read : Value → Checked σ} {ℓ : Leaf σ} (H : ℓ.Settled read) {v v' : Value}
    {s s' : σ} (h : read v = .ok s) (h' : read v' = .ok s')
    (hat : v'.at? ℓ.path = v.at? ℓ.path) {a a' : ℓ.field.α} (ha : ℓ.get s = some a)
    (ha' : ℓ.get s' = some a') : a' = a := by
  have hown := H v' s' h' a' ha'
  rw [hat, H v s h a ha] at hown
  exact (Except.ok.inj hown).symm

/-- A leaf without a default is there if the section around it is. -/
lemma Leaf.Settled.at?_ne_none {read : Value → Checked σ} {ℓ : Leaf σ} (H : ℓ.Settled read)
    (hℓ : ℓ.field.fallback = none) {v : Value} {s : σ} (h : read v = .ok s) {a : ℓ.field.α}
    (ha : ℓ.get s = some a) : v.at? ℓ.path ≠ none := by
  intro hnone
  have hown := H v s h a ha
  rw [hnone, Field.own, hℓ] at hown
  exact absurd hown Checked.error_ne_ok

namespace Fieldwise

variable {declared : List (Field σ)} {read : Value → Checked σ} (H : Fieldwise declared read)
include H

/-- A field of a section is a leaf that is settled. -/
lemma settled_plain {f : Field σ} (hf : f ∈ declared) : (Leaf.plain f).Settled read := by
  intro v s h a ha
  obtain ⟨fs, rfl, hfields⟩ := H v s h
  obtain rfl := Option.some.inj ha
  rw [Leaf.at?_path_plain]
  exact hfields f hf

/-- So is a leaf of a section inside it. A missing section is as good as an empty one.

**Proof sketch.** If the section is given, the leaf is read from it. If it is missing, the fallback
is what an empty section is read as, so that the leaf has its default, as if the section were there
with nothing in it. -/
lemma settled_under {name : String} {β : Type} {fallback : β} {check : Value → Checked β}
    {get : σ → β} (hf : ⟨name, some fallback, check, get⟩ ∈ declared) {inner : σ → Option ρ}
    {readInner : Value → Checked ρ}
    (hcheck : ∀ w s t, check w = .ok (get s) → inner s = some t → readInner w = .ok t)
    (hfallback : ∀ s t, get s = fallback → inner s = some t → readInner (.record []) = .ok t)
    {ℓ : Leaf ρ} (hℓ : ℓ.Settled readInner) : (ℓ.under name inner).Settled read := by
  intro v s h a ha
  obtain ⟨fs, rfl, hfields⟩ := H v s h
  have hown := hfields _ hf
  rw [Leaf.get_under] at ha
  obtain ⟨t, ht, hget⟩ := Option.bind_eq_some_iff.1 ha
  rw [Leaf.at?_path_under]
  change ℓ.field.own ((fs.lookup name).bind _) = _
  change given (some fallback) check (fs.lookup name) = _ at hown
  cases hlookup : fs.lookup name with
  | some w =>
    rw [hlookup] at hown
    exact hℓ w t (hcheck w s t hown ht) a hget
  | none =>
    rw [hlookup] at hown
    have hempty := hℓ (.record []) t (hfallback s t (Except.ok.inj hown).symm ht) a hget
    rwa [Leaf.at?_path_nil] at hempty

/-- So is a leaf of a section that is always there, if its default is what an empty one is. -/
lemma settled_section {name : String} {fallback : ρ} {check : Value → Checked ρ} {get : σ → ρ}
    (hf : ⟨name, some fallback, check, get⟩ ∈ declared)
    (hfallback : check (.record []) = .ok fallback) {ℓ : Leaf ρ} (hℓ : ℓ.Settled check) :
    (ℓ.under name (some <| get ·)).Settled read := by
  refine H.settled_under hf (fun w s t hw ht => ?_) (fun s t hs ht => ?_) hℓ
  · exact Option.some.inj ht ▸ hw
  · rw [hfallback, ← hs, Option.some.inj ht]

end Fieldwise

/-! ## The sections -/

namespace IdentitySettings

/-- The leaves of the section on the identity service. The last of its fields is a section. -/
def leaves : List (Leaf IdentitySettings) :=
  declared.dropLast.map .plain ++
    (RetrySettings.declared.map Leaf.plain).map (.under "retry" (some ·.retry))

/-- Every leaf of the identity settings is settled by what stands at its path: by the value there if
it is given, and by its default otherwise. -/
lemma settled_of_mem_leaves {ℓ : Leaf IdentitySettings} (hℓ : ℓ ∈ leaves) :
    ℓ.Settled IdentitySettings.read := by
  rcases List.mem_append.1 hℓ with hplain | hretry
  · obtain ⟨f, hf, rfl⟩ := List.mem_map.1 hplain
    exact fieldwise.settled_plain ((List.dropLast_sublist _).subset hf)
  · obtain ⟨_, hmem, rfl⟩ := List.mem_map.1 hretry
    obtain ⟨f, hf, rfl⟩ := List.mem_map.1 hmem
    have hfield : ⟨"retry", some {}, RetrySettings.read, retry⟩ ∈ declared := by simp [declared]
    exact fieldwise.settled_section hfield rfl (RetrySettings.fieldwise.settled_plain hf)

/-- The section has all its leaves. -/
lemma get_ne_none {ℓ : Leaf IdentitySettings} (hℓ : ℓ ∈ leaves) (t : IdentitySettings) :
    ℓ.get t ≠ none := by
  rcases List.mem_append.1 hℓ with hplain | hretry
  · obtain ⟨f, -, rfl⟩ := List.mem_map.1 hplain
    exact Option.some_ne_none _
  · obtain ⟨_, hmem, rfl⟩ := List.mem_map.1 hretry
    obtain ⟨f, -, rfl⟩ := List.mem_map.1 hmem
    exact Option.some_ne_none _

/-- Identity settings with the same leaves are the same. The leaves leave no field out. -/
lemma eq_of_leaves {t t' : IdentitySettings} (h : ∀ ℓ ∈ leaves, ℓ.get t = ℓ.get t') : t = t' := by
  obtain ⟨_, _, _, _, _, _, _, _, _, ⟨_, _, _, _, _⟩⟩ := t
  obtain ⟨_, _, _, _, _, _, _, _, _, ⟨_, _, _, _, _⟩⟩ := t'
  simp only [leaves, declared, RetrySettings.declared, List.dropLast_cons_cons,
    List.dropLast_singleton, List.map_cons, List.map_nil, List.forall_mem_append,
    List.forall_mem_cons] at h
  simpa [Leaf.get, Leaf.plain, Leaf.under, Field.plain, and_assoc] using h

end IdentitySettings

namespace Settings

/-- The leaves of the whole configuration. The first of its fields is plain, the others are
sections. -/
def leaves : List (Leaf Settings) :=
  (declared.take 1).map .plain ++
    ((Timing.declared "login_details_timeout_ms" ProvisionTiming.default).map Leaf.plain).map
      (.under "provision" (some ·.provision)) ++
    ((Timing.declared "active_transactions_timeout_ms" TeardownTiming.default).map Leaf.plain).map
      (.under "teardown" (some ·.teardown)) ++
    ((Timing.declared "image_available_timeout_ms" ImageTiming.default).map Leaf.plain).map
      (.under "image" (some ·.image)) ++
    (CacheSettings.declared.map Leaf.plain).map (.under "cache" (some ·.cache)) ++
    IdentitySettings.leaves.map (.under "auth" identity)

/-- What is true of all leaves of the settings is true of those of each part, and conversely. -/
lemma forall_mem_leaves {P : Leaf Settings → Prop} : (∀ ℓ ∈ leaves, P ℓ) ↔
    (∀ f ∈ declared.take 1, P (.plain f)) ∧
    (∀ f ∈ Timing.declared "login_details_timeout_ms" ProvisionTiming.default,
      P (.under "provision" (some ·.provision) (.plain f))) ∧
    (∀ f ∈ Timing.declared "active_transactions_timeout_ms" TeardownTiming.default,
      P (.under "teardown" (some ·.teardown) (.plain f))) ∧
    (∀ f ∈ Timing.declared "image_available_timeout_ms" ImageTiming.default,
      P (.under "image" (some ·.image) (.plain f))) ∧
    (∀ f ∈ CacheSettings.declared, P (.under "cache" (some ·.cache) (.plain f))) ∧
    ∀ ℓ ∈ IdentitySettings.leaves, P (.under "auth" identity ℓ) := by
  simp only [leaves, List.forall_mem_append, List.forall_mem_map, and_assoc]

/-- A field of the identity settings, other than the retry settings, is a leaf of the settings as a
whole. -/
lemma under_plain_mem_leaves {f : Field IdentitySettings}
    (hf : f ∈ IdentitySettings.declared.dropLast) :
    Leaf.under "auth" identity (.plain f) ∈ leaves :=
  List.mem_append_right _ (List.mem_map_of_mem (List.mem_append_left _ (List.mem_map_of_mem hf)))

/-- **All leaves** of a configuration are settled by what stands at their paths.

**Proof sketch.** Leaves on the first level are settled by their fields. Each of the sections has
its own lemma, and that on the identity service differs from the others, as it has no default. -/
theorem settled_of_mem_leaves : ∀ ℓ ∈ leaves, ℓ.Settled Settings.read := by
  refine forall_mem_leaves.2 ⟨fun f hf => ?_, fun f hf => ?_, fun f hf => ?_, fun f hf => ?_,
    fun f hf => ?_, fun ℓ hℓ => ?_⟩
  · exact fieldwise.settled_plain (List.mem_of_mem_take hf)
  · have hfield : ⟨"provision", some ProvisionTiming.default, ProvisionTiming.read, provision⟩ ∈
        declared := by simp [declared]
    exact fieldwise.settled_section hfield rfl ((Timing.fieldwise _ _ _).settled_plain hf)
  · have hfield : ⟨"teardown", some TeardownTiming.default, TeardownTiming.read, teardown⟩ ∈
        declared := by simp [declared]
    exact fieldwise.settled_section hfield rfl ((Timing.fieldwise _ _ _).settled_plain hf)
  · have hfield : ⟨"image", some ImageTiming.default, ImageTiming.read, image⟩ ∈ declared := by
      simp [declared]
    exact fieldwise.settled_section hfield rfl ((Timing.fieldwise _ _ _).settled_plain hf)
  · have hfield : ⟨"cache", some {}, CacheSettings.read, cache⟩ ∈ declared := by simp [declared]
    exact fieldwise.settled_section hfield rfl (CacheSettings.fieldwise.settled_plain hf)
  · have hfield : ⟨"auth", some none, readIdentity, identity⟩ ∈ declared := by simp [declared]
    refine fieldwise.settled_under hfield (fun w s t hw ht => ?_) (fun s t hs ht => ?_)
      (IdentitySettings.settled_of_mem_leaves hℓ)
    · exact read_of_readIdentity (ht ▸ hw)
    · exact absurd (hs.symm.trans ht) (by simp)

/-- A leaf is missing in the result if its section is, which only the one on the identity service
can be.

**Proof sketch.** The leaves are gone through by sections. All sections but one are always there,
and that one is there if it is in the result. -/
lemma get_eq_none_iff (s : Settings) :
    ∀ ℓ ∈ leaves, ℓ.get s = none ↔ ℓ.path.head? = some "auth" ∧ s.identity = none := by
  refine forall_mem_leaves.2 ⟨fun f hf => ?_, fun f hf => ?_, fun f hf => ?_, fun f hf => ?_,
    fun f hf => ?_, fun ℓ hℓ => ?_⟩
  · obtain rfl : f = .plain "naming_prefix" (some "nodes") lead namingLead := by
      simpa [declared] using hf
    exact iff_of_false (Option.some_ne_none _) fun h => absurd h.1 (by decide)
  iterate 4
    exact iff_of_false (Option.some_ne_none _) fun h => absurd (Option.some.inj h.1) (by decide)
  · rw [Leaf.get_under]
    cases s.identity with
    | none => exact iff_of_true rfl ⟨rfl, rfl⟩
    | some t => exact iff_of_false (IdentitySettings.get_ne_none hℓ t) (by simp)

/-- There is nothing in a configuration but its leaves.

**Proof sketch.** Both configurations have an identity service or neither has, which any of its
leaves tells. The other sections and fields are compared leaf by leaf. -/
theorem eq_of_leaves {s s' : Settings} (h : ∀ ℓ ∈ leaves, ℓ.get s = ℓ.get s') : s = s' := by
  obtain ⟨hlead, hprovision, hteardown, himage, hcache, hidentity⟩ := forall_mem_leaves.1 h
  have hsame : s.identity = s'.identity := by
    obtain ⟨ℓ, hℓ⟩ : ∃ ℓ, ℓ ∈ IdentitySettings.leaves := ⟨_, List.mem_cons_self⟩
    have hget := hidentity ℓ hℓ
    simp only [Leaf.get_under] at hget hidentity
    cases ht : s.identity with
    | none =>
      cases ht' : s'.identity with
      | none => rfl
      | some t' =>
        rw [ht, ht'] at hget
        exact absurd hget.symm (IdentitySettings.get_ne_none hℓ t')
    | some t =>
      cases ht' : s'.identity with
      | none =>
        rw [ht, ht'] at hget
        exact absurd hget (IdentitySettings.get_ne_none hℓ t)
      | some t' =>
        rw [ht, ht'] at hidentity
        exact congrArg some (IdentitySettings.eq_of_leaves hidentity)
  obtain ⟨_, ⟨_, _⟩, ⟨_, _⟩, ⟨_, _⟩, ⟨_, _, _, _⟩, _⟩ := s
  obtain ⟨_, ⟨_, _⟩, ⟨_, _⟩, ⟨_, _⟩, ⟨_, _, _, _⟩, _⟩ := s'
  simp only [Settings.mk.injEq, Timing.mk.injEq, CacheSettings.mk.injEq]
  refine ⟨?_, ?_, ?_, ?_, ?_, hsame⟩
  · simpa [declared, Leaf.get, Leaf.plain, Field.plain] using hlead
  · simpa [Timing.declared, Leaf.get, Leaf.plain, Leaf.under, Field.plain] using hprovision
  · simpa [Timing.declared, Leaf.get, Leaf.plain, Leaf.under, Field.plain] using hteardown
  · simpa [Timing.declared, Leaf.get, Leaf.plain, Leaf.under, Field.plain] using himage
  · simpa [CacheSettings.declared, Leaf.get, Leaf.plain, Leaf.under, Field.plain] using hcache

/-! ## Changes -/

/-- Without an identity service, the document has nothing at its leaves.

**Proof sketch.** A result without the section comes from a document in which it is missing or null,
and then nothing is found below it. -/
lemma at?_path_of_identity {v : Value} {s : Settings} (h : Settings.read v = .ok s)
    (hs : s.identity = none) (ℓ : Leaf IdentitySettings) :
    v.at? (ℓ.under "auth" identity).path = none := by
  obtain ⟨fs, rfl, hfields⟩ := fieldwise v s h
  have hown := hfields ⟨"auth", some none, readIdentity, identity⟩ (by simp [declared])
  rw [Leaf.at?_path_under]
  change (fs.lookup "auth").bind _ = none
  change given _ _ (fs.lookup "auth") = .ok s.identity at hown
  cases hlookup : fs.lookup "auth" with
  | none => rfl
  | some w =>
    rw [hlookup, hs] at hown
    rw [eq_null_of_readIdentity hown]
    exact ℓ.at?_path_null

/-- With one, it has whatever has no default. -/
lemma at?_path_ne_none {v : Value} {s : Settings} {t : IdentitySettings}
    (h : Settings.read v = .ok s) (ht : s.identity = some t) {f : Field IdentitySettings}
    (hf : f ∈ IdentitySettings.declared.dropLast) (hfallback : f.fallback = none) :
    v.at? (Leaf.under "auth" identity (.plain f)).path ≠ none := by
  refine (settled_of_mem_leaves _ (under_plain_mem_leaves hf)).at?_ne_none hfallback h
    (a := f.get t) ?_
  rw [Leaf.get_under, ht]
  rfl

/-- A document that agrees in all leaves but one with a document that has no identity service has
none either.

**Proof sketch.** If the other document had an identity service, its endpoint and its identity would
have to be given, as they have no defaults. In the first document they are not there; so both would
be the one leaf that differs. -/
lemma identity_eq_none_of_agree {v v' : Value} {s s' : Settings} (h : Settings.read v = .ok s)
    (h' : Settings.read v' = .ok s') {path : List String}
    (hagree : ∀ ℓ ∈ leaves, ℓ.path ≠ path → v'.at? ℓ.path = v.at? ℓ.path)
    (hs : s.identity = none) : s'.identity = none := by
  cases ht' : s'.identity with
  | none => rfl
  | some t' =>
    have hdiffers {f : Field IdentitySettings} (hf : f ∈ IdentitySettings.declared.dropLast)
        (hfallback : f.fallback = none) :
        (Leaf.under "auth" identity (.plain f)).path = path := by
      refine Decidable.not_not.1 fun hne => at?_path_ne_none h' ht' hf hfallback ?_
      rw [hagree _ (under_plain_mem_leaves hf) hne]
      exact at?_path_of_identity h hs _
    -- two leaves without defaults would have to be the one that differs
    have hendpoint : ["auth", "endpoint"] = path :=
      hdiffers (f := .plain "endpoint" none text IdentitySettings.endpoint)
        (by simp [IdentitySettings.declared]) rfl
    have hidentity : ["auth", "identity"] = path :=
      hdiffers (f := .plain "identity" none text IdentitySettings.identity)
        (by simp [IdentitySettings.declared]) rfl
    exact absurd (hendpoint.trans hidentity.symm) (by decide)

/-- **Leaves do not depend on each other.** Where two documents agree in all leaves but one, so do
the configurations that are read from them.

**Proof sketch.** A leaf is missing in one configuration just if it is missing in the other, by
`identity_eq_none_of_agree` both ways. If it is there, it is settled by what stands at its path,
which is the same in both documents. -/
theorem get_eq_of_agree {v v' : Value} {s s' : Settings} (h : Settings.read v = .ok s)
    (h' : Settings.read v' = .ok s') {path : List String}
    (hagree : ∀ ℓ ∈ leaves, ℓ.path ≠ path → v'.at? ℓ.path = v.at? ℓ.path) :
    ∀ ℓ ∈ leaves, ℓ.path ≠ path → ℓ.get s' = ℓ.get s := by
  intro ℓ hℓ hne
  have hnone : ℓ.get s = none ↔ ℓ.get s' = none := by
    rw [get_eq_none_iff s ℓ hℓ, get_eq_none_iff s' ℓ hℓ]
    refine and_congr_right fun _ => ⟨identity_eq_none_of_agree h h' hagree,
      identity_eq_none_of_agree h' h fun ℓ hℓ hne => (hagree ℓ hℓ hne).symm⟩
  cases ha : ℓ.get s with
  | none => exact hnone.1 ha
  | some a =>
    cases ha' : ℓ.get s' with
    | none => exact absurd (hnone.2 ha') (by simp [ha])
    | some a' =>
      exact congrArg some ((settled_of_mem_leaves ℓ hℓ).eq h h' (hagree ℓ hℓ hne) ha ha')

/-- **Configurations are put together of their fields, and their leaves.** A configuration is
accepted if and only if all names in it are known and every field is accepted on its own. If it is
not, its problems are those of its fields, in the order in which they are declared, and then the
names that are not known, in the order in which they are given; so the problems under a name are
those of its field alone. Fields that do not go together are told if and only if all fields of their
section are fine by themselves. What is accepted has defaults for leaves that are missing, and no
change of one leaf changes another.

**Proof sketch.** The parts are proved one by one: `read_eq_ok_iff` for what is accepted,
`problems_read` for what is not, `conflict_mem_problems_iff` for the conflict, and the leaves with
`settled_of_mem_leaves`, `get_eq_of_agree` and `eq_of_leaves`. -/
theorem read_compositional (fs : List (String × Value)) :
    (∀ s, Settings.read (.record fs) = .ok s ↔ (∀ x ∈ fs, x.1 ∈ names) ∧
      ∀ f ∈ declared, f.own (fs.lookup f.name) = .ok (f.get s)) ∧
    (∀ ps, Settings.read (.record fs) = .error ps ↔
      ps ≠ [] ∧ ps = declared.flatMap (·.problems fs) ++ unknown fs) ∧
    (∀ f ∈ declared, (Settings.read (.record fs)).problems.filter (·.path.head? = some f.name) =
      f.problems fs) ∧
    (∀ reason, ⟨["auth"], .conflict reason⟩ ∈ (Settings.read (.record fs)).problems ↔
      reason = IdentitySettings.conflictReason ∧ ∃ gs, fs.lookup "auth" = some (.record gs) ∧
        ∃ t, (∀ f ∈ IdentitySettings.declared, f.own (gs.lookup f.name) = .ok (f.get t)) ∧
          t.version = .v3 ∧ t.kind = .accessKey) ∧
    (∀ s, Settings.read (.record fs) = .ok s →
      (∀ ℓ ∈ leaves, ∀ a, ℓ.get s = some a →
        ((Value.record fs).at? ℓ.path = none → ℓ.field.fallback = some a) ∧
          ∀ v, (Value.record fs).at? ℓ.path = some v → ℓ.field.check v = .ok a) ∧
      (∀ ℓ ∈ leaves, ℓ.get s = none ↔ ℓ.path.head? = some "auth" ∧ s.identity = none) ∧
      ∀ gs s', Settings.read (.record gs) = .ok s' → ∀ path,
        (∀ ℓ ∈ leaves, ℓ.path ≠ path →
          (Value.record gs).at? ℓ.path = (Value.record fs).at? ℓ.path) →
        ∀ ℓ ∈ leaves, ℓ.path ≠ path → ℓ.get s' = ℓ.get s) ∧
    ∀ s s' : Settings, (∀ ℓ ∈ leaves, ℓ.get s = ℓ.get s') → s = s' := by
  refine ⟨fun s => read_eq_ok_iff, fun ps => ?_, fun f hf => filter_problems_read fs hf,
    fun reason => conflict_mem_problems_iff, fun s h => ⟨fun ℓ hℓ a ha => ⟨fun hnone => ?_,
      fun v hv => ?_⟩, get_eq_none_iff s, fun gs s' h' path => get_eq_of_agree h h'⟩,
    fun s s' => eq_of_leaves⟩
  · rw [(proper_read fs).eq_error_iff, problems_read]
  · have hown := settled_of_mem_leaves ℓ hℓ _ s h a ha
    rw [hnone] at hown
    exact Field.fallback_of_own hown
  · have hown := settled_of_mem_leaves ℓ hℓ _ s h a ha
    rwa [hv] at hown

/-- A prefix and one pause are given, and all else has its defaults. With three mistakes in three
sections and a name that nobody knows, all four are told.

**Proof sketch.** Both parts are `read_compositional`; what it asks of the fields is found by
evaluation. -/
theorem read_compositional_partial :
    (∃ s, Settings.read (.record [("teardown", .record [("poll_period_ms", .int 2000)]),
        ("naming_prefix", .text "lab")]) = .ok s ∧
      s.namingLead = "lab" ∧ s.teardown = ⟨180000, 2000⟩ ∧ s.provision = ⟨1200000, 1000⟩) ∧
    Settings.read (.record [("surplus", .null),
        ("auth", .record [("version", .text "v3"), ("credential_type", .text "api_access_key"),
          ("endpoint", .text "k"), ("identity", .text "u"), ("secret", .text "p")]),
        ("teardown", .record [("poll_period_ms", .int 1)]), ("naming_prefix", .text "9")]) =
      .error [⟨["naming_prefix"], .wrongPattern leadPattern⟩,
        ⟨["teardown", "poll_period_ms"], .below 500⟩,
        ⟨["auth"], .conflict IdentitySettings.conflictReason⟩, ⟨["surplus"], .unknown⟩] := by
  constructor
  · refine ⟨{ namingLead := "lab", teardown := ⟨180000, 2000⟩ },
      ((read_compositional _).1 _).2 ⟨by decide, ?_⟩, rfl, rfl, rfl⟩
    simp only [declared, List.forall_mem_cons]
    exact ⟨rfl, rfl, rfl, rfl, rfl, rfl, List.forall_mem_nil _⟩
  · exact ((read_compositional _).2.1 _).2 ⟨by decide, rfl⟩

end Settings

end Config

end NodeKeeper
