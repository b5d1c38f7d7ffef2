import Mathlib.Tactic.Simproc.ExistsAndEq
import NodeKeeper.Config.Root

/-!
# Sections field by field

A section is checked field by field. Each field is checked on its own: what stands in the section
under its name, or its default. The section is accepted if and only if all its fields are, and its
problems are those of its fields, one field after the other, with the name of the field in front.

## Main definitions

* `Config.Field` — a declared field of a section.
* `Config.Field.own` — the check of a field on its own.
* `Config.Composes` — a section is put together of its fields.
* `Config.Fieldwise` — a section that is accepted is read field by field.
* `Config.Settings.declared`, and the same for the other sections — their fields, as declared.

## Main results

* `Config.Timing.composes`, `Config.RetrySettings.composes`, `Config.CacheSettings.composes`,
  `Config.IdentitySettings.composes`, `Config.Settings.composes` — all sections are put together of
  their fields.
* `Config.Settings.read_eq_ok_iff`, `Config.Settings.problems_read` — the whole configuration, with
  the names that are not known.
* `Config.Settings.filter_problems_read` — no section gets in the way of another one.
* `Config.Settings.conflict_mem_problems_iff` — when it is told that fields do not go together.

## Implementation notes

A section is read by applying a constructor to the checks of its fields, one after the other.
Whether all of them pass is turned into a statement on the fields by `Checked.Gives`, which takes
the checks off from the outside in.
-/

namespace NodeKeeper.Config

open Section Setting

variable {α β σ : Type}

/-! ## Checks -/

namespace Checked

/-- A check that fails has a problem to tell. -/
def Proper (x : Checked α) : Prop := x ≠ .error []

variable {x : Checked α} {f : Checked (α → β)} {name : String}

-- the equations have to be told that they are about checks, which the constructors do not say
/-- Two values that passed are the same result if and only if they are the same value. -/
@[simp] lemma ok_inj {a b : α} : @Eq (Checked α) (.ok a) (.ok b) ↔ a = b :=
  ⟨Except.ok.inj, congrArg _⟩

/-- Two rejections are the same result if and only if they have the same problems, in the same
order. -/
@[simp] lemma error_inj {ps qs : List Problem} :
    @Eq (Checked α) (.error ps) (.error qs) ↔ ps = qs :=
  ⟨Except.error.inj, congrArg _⟩

/-- A rejection is not a value that passed. -/
@[simp] lemma error_ne_ok {a : α} {ps : List Problem} : ¬ @Eq (Checked α) (.error ps) (.ok a) :=
  nofun

/-- A value that passed is proper, as it has no problems to name. -/
lemma proper_ok (a : α) : Proper (.ok a) := nofun

/-- A rejection that names a problem is proper, whatever else it names. -/
lemma proper_error (p : Problem) (ps : List Problem) : Proper (.error (p :: ps) : Checked α) :=
  nofun

/-- A proper result is a rejection if and only if it has problems, and then it names just these. -/
lemma Proper.eq_error_iff (h : x.Proper) {ps : List Problem} :
    x = .error ps ↔ ps ≠ [] ∧ ps = x.problems := by
  cases x with
  | ok a => simp [problems]
  | error qs =>
    have hqs : qs ≠ [] := fun he => h (congrArg Except.error he)
    simp only [error_inj, problems]
    exact ⟨fun he => ⟨he ▸ hqs, he.symm⟩, fun he => he.2.symm⟩

/-- What is made of a value that passed does not change the problems of one that did not. -/
@[simp] lemma problems_map (g : α → β) (x : Checked α) : (g <$> x).problems = x.problems := by
  cases x <;> rfl

/-- The problems of two results that are put together are those of the first one, and then those of
the second one. Neither hides the other. -/
@[simp] lemma problems_seq (f : Checked (α → β)) (x : Checked α) :
    (f <*> x).problems = f.problems ++ x.problems := by
  cases f <;> cases x <;> simp [Seq.seq, apply, problems]

/-- The problems of a part are those of the part alone, with its name in front of their paths. -/
@[simp] lemma problems_within (name : String) (x : Checked α) :
    (x.within name).problems = x.problems.map (Problem.within name) := by
  cases x <;> rfl

/-- A check is passed with a result of which something holds. -/
def Gives (x : Checked α) (P : α → Prop) : Prop := ∃ a, x = .ok a ∧ P a

/-- A value passes as a certain one if and only if it gives this one. -/
lemma eq_ok_iff_gives {a : α} : x = .ok a ↔ x.Gives (· = a) := by
  simp [Gives]

/-- What is made of a result gives something if and only if the result gives what leads to it. -/
lemma gives_map (g : α → β) (x : Checked α) (P : β → Prop) :
    (g <$> x).Gives P ↔ x.Gives fun a => P (g a) := by
  cases x <;> simp [Gives, Functor.map, apply]

/-- Two checks are passed one after the other. -/
lemma gives_seq (f : Checked (α → β)) (x : Checked α) (P : β → Prop) :
    (f <*> x).Gives P ↔ f.Gives fun g => x.Gives fun a => P (g a) := by
  cases f <;> cases x <;> simp [Gives, Seq.seq, apply]

/-- Naming the part that a result is of changes nothing about a value that passed. -/
@[simp] lemma within_eq_ok_iff {a : α} : x.within name = .ok a ↔ x = .ok a := by
  cases x <;> simp [within]

/-- What is made of a proper result is proper: it has the same problems. -/
lemma Proper.map (h : x.Proper) (g : α → β) : (g <$> x).Proper := by
  cases x with
  | ok a => exact proper_ok _
  | error ps => exact fun he => h (congrArg Except.error (Except.error.inj he))

/-- Two proper results are proper once they are put together, as the problems of both are named. -/
lemma Proper.seq (hf : f.Proper) (hx : x.Proper) : (f <*> x).Proper := by
  cases f with
  | ok g => exact hx.map g
  | error ps =>
    cases x with
    | ok a => exact fun he => hf (congrArg Except.error (Except.error.inj he))
    | error qs =>
      intro he
      have hps : ps = [] := (List.append_eq_nil_iff.1 (Except.error.inj he)).1
      exact hf (congrArg Except.error hps)

/-- A proper result is proper as one of a part: no problem gets lost when paths are made longer. -/
lemma Proper.within (h : x.Proper) (name : String) : (x.within name).Proper := by
  cases x with
  | ok a => exact proper_ok a
  | error ps =>
    intro he
    have hps : ps = [] := List.map_eq_nil_iff.1 (Except.error.inj he)
    exact h (congrArg Except.error hps)

end Checked

/-! ## Fields -/

/-- A reading of one setting, as a check of a document. -/
def alone (read : Reading α) (v : Value) : Checked α := (read v).mapError fun flaw => [⟨[], flaw⟩]

/-- A setting that is read on its own is proper. It is rejected with exactly one problem. -/
lemma proper_alone (read : Reading α) (v : Value) : (alone read v).Proper := by
  unfold alone
  cases read v with
  | ok a => exact Checked.proper_ok a
  | error flaw => exact Checked.proper_error _ _

/-- What passes as a setting on its own was read so. -/
lemma eq_ok_of_alone {read : Reading α} {v : Value} {a : α} (h : alone read v = .ok a) :
    read v = .ok a := by
  unfold alone at h
  cases hread : read v with
  | ok b =>
    rw [hread] at h
    exact congrArg _ (Except.ok.inj h)
  | error flaw =>
    rw [hread] at h
    exact absurd h nofun

/-- The check of what is given for a field, if anything is; a missing field has its default, or is a
problem if there is none. -/
def given (fallback : Option α) (check : Value → Checked α) : Option Value → Checked α
  | some v => check v
  | none =>
    match fallback with
    | some a => .ok a
    | none => .error [⟨[], .missing⟩]

/-- A field that may be left out is proper if its check is. Left out, it takes its default, or is
rejected as missing. -/
lemma proper_given {check : Value → Checked α} (hp : ∀ v, (check v).Proper) (fallback : Option α)
    (v? : Option Value) : (given fallback check v?).Proper := by
  cases v? with
  | some v => exact hp v
  | none =>
    cases fallback with
    | none => exact Checked.proper_error _ _
    | some a => exact Checked.proper_ok a

/-- A declared field of a section with results in `σ`. -/
structure Field (σ : Type) where
  {α : Type}
  name : String
  /-- What the field is if it is missing. -/
  fallback : Option α
  /-- The check of what is given for it. -/
  check : Value → Checked α
  /-- Where it stands in the result. -/
  get : σ → α

namespace Field

/-- A field that is a plain setting. -/
def plain (name : String) (fallback : Option α) (read : Reading α) (get : σ → α) : Field σ :=
  ⟨name, fallback, alone read, get⟩

/-- The check of a field on its own, by what is given for it. -/
def own (f : Field σ) (v? : Option Value) : Checked f.α := given f.fallback f.check v?

/-- The problems of a field, as its section tells them. -/
def problems (f : Field σ) (fs : List (String × Value)) : List Problem :=
  (f.own (fs.lookup f.name)).problems.map (Problem.within f.name)

/-- What a field comes to that is left out is its default. -/
lemma fallback_of_own {f : Field σ} {a : f.α} (h : f.own none = .ok a) : f.fallback = some a := by
  unfold own given at h
  cases hf : f.fallback with
  | none =>
    rw [hf] at h
    exact absurd h Checked.error_ne_ok
  | some b =>
    rw [hf] at h
    exact congrArg some (Except.ok.inj h)

/-- A field that was read has its default, or was given. -/
lemma eq_or_exists_of_own {f : Field σ} {fallback a : f.α} (hf : f.fallback = some fallback)
    {v? : Option Value} (h : f.own v? = .ok a) : a = fallback ∨ ∃ v, f.check v = .ok a := by
  cases v? with
  | none => exact Or.inl (Option.some.inj ((fallback_of_own h).symm.trans hf))
  | some v => exact Or.inr ⟨v, h⟩

/-- A plain setting that was read has its default, or was given. -/
lemma eq_or_exists_of_plain {name : String} {fallback a : α} {read : Reading α} {get : σ → α}
    {v? : Option Value} (h : (plain name (some fallback) read get).own v? = .ok a) :
    a = fallback ∨ ∃ v, read v = .ok a := by
  exact (eq_or_exists_of_own rfl h).imp_right fun ⟨v, hv⟩ => ⟨v, eq_ok_of_alone hv⟩

/-- All problems of a field stand under its name. -/
lemma head?_path_of_mem_problems {f : Field σ} {fs : List (String × Value)} {p : Problem}
    (h : p ∈ f.problems fs) : p.path.head? = some f.name := by
  obtain ⟨q, -, rfl⟩ := List.mem_map.1 h
  rfl

end Field

/-- The problems of a field in a document are those that it has on its own with what the document
says of it, under its name. -/
lemma Field.mem_problems_iff {f : Field σ} {fs : List (String × Value)} {path : List String}
    {flaw : Flaw} : ⟨f.name :: path, flaw⟩ ∈ f.problems fs ↔
      ⟨path, flaw⟩ ∈ (f.own (fs.lookup f.name)).problems := by
  simp only [problems, List.mem_map, Problem.within, Problem.mk.injEq, List.cons.injEq, true_and]
  exact ⟨fun ⟨p, hp, hpath, hflaw⟩ => hpath ▸ hflaw ▸ hp, fun h => ⟨_, h, rfl, rfl⟩⟩

/-- Of the problems of a field, those under a name are all of them if it is the name of the field,
and none otherwise. -/
lemma filter_problems (g : Field σ) (fs : List (String × Value)) (name : String) :
    (g.problems fs).filter (·.path.head? = some name) =
      if g.name = name then g.problems fs else [] := by
  split
  · next h =>
    refine List.filter_eq_self.2 fun p hp => ?_
    simp [Field.head?_path_of_mem_problems hp, h]
  · next h =>
    refine List.filter_eq_nil_iff.2 fun p hp => ?_
    simp [Field.head?_path_of_mem_problems hp, h]

/-- If no two fields have the same name, the problems under the name of a field are its own.

**Proof sketch.** Induction on the fields. The problems of a field have its name in front, so that
those of other fields are filtered out, as no two names are the same. -/
lemma filter_flatMap_problems {declared : List (Field σ)} (fs : List (String × Value))
    (hd : (declared.map Field.name).Nodup) {f : Field σ} (hf : f ∈ declared) :
    (declared.flatMap (·.problems fs)).filter (·.path.head? = some f.name) = f.problems fs := by
  induction declared with
  | nil => exact absurd hf List.not_mem_nil
  | cons g rest ih =>
    obtain ⟨hg, hrest⟩ := List.nodup_cons.1 hd
    rw [List.flatMap_cons, List.filter_append, filter_problems]
    rcases List.mem_cons.1 hf with rfl | hmem
    · have hnone : (rest.flatMap (·.problems fs)).filter (·.path.head? = some f.name) = [] := by
        refine List.filter_eq_nil_iff.2 fun p hp => ?_
        obtain ⟨g, hmem, hp⟩ := List.mem_flatMap.1 hp
        have hne : g.name ≠ f.name := fun he => hg (he ▸ List.mem_map_of_mem hmem)
        simp [Field.head?_path_of_mem_problems hp, hne]
      rw [if_pos rfl, hnone, List.append_nil]
    · have hne : g.name ≠ f.name := fun he => hg (he ▸ List.mem_map_of_mem hmem)
      rw [if_neg hne, List.nil_append, ih hrest hmem]

section Sections

variable (fs : List (String × Value)) (name : String)

/-- A setting of a section is a field that is read on its own, under its name, from what the section
says of it. -/
lemma setting_eq (fallback : Option α) (read : Reading α) :
    setting fs name fallback read = (given fallback (alone read) (fs.lookup name)).within name := by
  unfold setting given
  cases fs.lookup name with
  | none => cases fallback <;> rfl
  | some v =>
    simp only [alone]
    cases read v <;> rfl

/-- A part of a document is a field too. Left out, it takes its default as a whole. -/
lemma part_eq (fallback : α) (read : Value → Checked α) :
    part fs name fallback read = (given (some fallback) read (fs.lookup name)).within name := by
  unfold part given
  cases fs.lookup name <;> rfl

/-- A setting of a section is proper, whether it is there or left out. -/
lemma proper_setting (fallback : Option α) (read : Reading α) :
    (setting fs name fallback read).Proper := by
  rw [setting_eq]
  exact (proper_given (proper_alone read) fallback _).within name

/-- A part of a document is proper if its reading is. -/
lemma proper_part (fallback : α) {read : Value → Checked α} (hp : ∀ v, (read v).Proper) :
    (part fs name fallback read).Proper := by
  rw [part_eq]
  exact (proper_given hp _ _).within name

end Sections

/-- A section is put together of its fields: it is accepted if all of them are, and has the problems
of all of them, in the order in which they are declared. -/
structure Composes (declared : List (Field σ)) (fs : List (String × Value)) (x : Checked σ) :
    Prop where
  eq_ok_iff : ∀ s, x = .ok s ↔ ∀ f ∈ declared, f.own (fs.lookup f.name) = .ok (f.get s)
  problems_eq : x.problems = declared.flatMap (·.problems fs)
  proper : x.Proper

/-- A section that has to be a record has a problem if it is none. -/
lemma proper_of_composes {declared : List (Field σ)} {title : String} {read : Value → Checked σ}
    (hrecord : ∀ fs, Composes declared fs (read (.record fs)))
    (hother : ∀ v ps, fields title v = .error ps → read v = .error ps) (v : Value) :
    (read v).Proper := by
  cases v with
  | record fs => exact (hrecord fs).proper
  | null | bool _ | int _ | float _ | text _ | list _ =>
    rw [hother _ _ rfl]
    exact Checked.proper_error _ _

/-- A section is read field by field. -/
def Fieldwise (declared : List (Field σ)) (read : Value → Checked σ) : Prop :=
  ∀ v s, read v = .ok s → ∃ fs, v = .record fs ∧
    ∀ f ∈ declared, f.own (fs.lookup f.name) = .ok (f.get s)

/-- A reading is fieldwise if, of a record, it composes the readings of its fields, and if whatever
is not a record is rejected as such. -/
lemma fieldwise_of_composes {declared : List (Field σ)} {title : String} {read : Value → Checked σ}
    (hrecord : ∀ fs, Composes declared fs (read (.record fs)))
    (hother : ∀ v ps, fields title v = .error ps → read v = .error ps) :
    Fieldwise declared read := by
  intro v s h
  cases v with
  | record fs => exact ⟨fs, rfl, ((hrecord fs).eq_ok_iff s).1 h⟩
  | null | bool _ | int _ | float _ | text _ | list _ =>
    rw [hother _ _ rfl] at h
    exact absurd h Checked.error_ne_ok

/-! ## Timings -/

namespace Timing

variable (title timeoutName : String) (fallback : Timing)

/-- The fields of a timing section. -/
def declared : List (Field Timing) :=
  [.plain timeoutName (some fallback.timeout) (integerAbove 500) timeout,
    .plain "poll_period_ms" (some fallback.period) (integerAtLeast 500) period]

/-- The reading of a wait composes the readings of its fields: the timeout, the first period, the
factor and the longest period. -/
theorem composes (fs : List (String × Value)) : Composes (declared timeoutName fallback) fs
    (Timing.read title timeoutName fallback (.record fs)) := by
  change Composes _ fs
    (Timing.mk <$> setting fs timeoutName _ _ <*> setting fs "poll_period_ms" _ _)
  refine ⟨fun s => ?_, ?_, ((proper_setting _ _ _ _).map _).seq (proper_setting _ _ _ _)⟩
  · cases s
    simp only [Checked.eq_ok_iff_gives, Checked.gives_seq, Checked.gives_map]
    simp [Checked.Gives, declared, Field.plain, Field.own, setting_eq]
  · simp [declared, Field.plain, Field.own, Field.problems, setting_eq]

/-- The reading of a wait is proper, for every value that a document may have in its place. -/
lemma proper_read (v : Value) : (Timing.read title timeoutName fallback v).Proper :=
  proper_of_composes (composes title timeoutName fallback)
    (fun v ps h => by rw [Timing.read, h]) v

/-- The reading of a wait is fieldwise: it accepts a section if and only if it accepts each field,
and rejects it with the problems of all fields. -/
lemma fieldwise :
    Fieldwise (declared timeoutName fallback) (Timing.read title timeoutName fallback) :=
  fieldwise_of_composes (composes title timeoutName fallback) fun v ps h => by rw [Timing.read, h]

end Timing

/-! ## Caches -/

namespace CacheSettings

/-- The fields of the section on caches. -/
def declared : List (Field CacheSettings) :=
  [.plain "token_ttl_seconds" (some 3540.0) (numberAbove 0) tokenTtl,
    .plain "session_token_ttl_seconds" (some 39600.0) (numberAbove 0) sessionTtl,
    .plain "key_pair_ttl_seconds" (some none) (optional (numberAbove 0)) keyPairTtl,
    .plain "token_expiry_margin_seconds" (some 30.0) (numberAtLeast 0) margin]

/-- The reading of the cache settings composes the readings of their fields.

**Proof sketch.** The reading is written as one reader for each field, in their order. Whether they
all give a value is then a conjunction, and the problems are appended. -/
theorem composes (fs : List (String × Value)) :
    Composes declared fs (CacheSettings.read (.record fs)) := by
  change Composes _ fs (CacheSettings.mk <$> setting fs "token_ttl_seconds" _ _
    <*> setting fs "session_token_ttl_seconds" _ _ <*> setting fs "key_pair_ttl_seconds" _ _
    <*> setting fs "token_expiry_margin_seconds" _ _)
  have hp {α : Type} (name : String) (fallback : Option α) (read : Reading α) :=
    proper_setting fs name fallback read
  refine ⟨fun s => ?_, ?_, ((((hp _ _ _).map _).seq (hp _ _ _)).seq (hp _ _ _)).seq (hp _ _ _)⟩
  · cases s
    simp only [Checked.eq_ok_iff_gives, Checked.gives_seq, Checked.gives_map]
    simp [Checked.Gives, declared, Field.plain, Field.own, setting_eq]
  · simp [declared, Field.plain, Field.own, Field.problems, setting_eq]

/-- The reading of the cache settings is proper. -/
lemma proper_read (v : Value) : (CacheSettings.read v).Proper :=
  proper_of_composes composes (fun v ps h => by rw [CacheSettings.read, h]) v

/-- The reading of the cache settings is fieldwise, as that of a wait. -/
lemma fieldwise : Fieldwise declared CacheSettings.read :=
  fieldwise_of_composes composes fun v ps h => by rw [CacheSettings.read, h]

end CacheSettings

/-! ## Trying again -/

namespace RetrySettings

/-- The fields of the section on trying again. -/
def declared : List (Field RetrySettings) :=
  [.plain "max_attempts" (some 5) (integerAtLeast 1) attempts,
    .plain "initial_wait_seconds" (some 1.0) (numberAbove 0) initialWait,
    .plain "max_wait_seconds" (some 60.0) (numberAbove 0) maxWait,
    .plain "multiplier" (some 2.0) (numberAtLeast 1) multiplier,
    .plain "jitter" (some true) truth jitter]

/-- The reading of the retry settings composes the readings of their fields. -/
theorem composes (fs : List (String × Value)) :
    Composes declared fs (RetrySettings.read (.record fs)) := by
  change Composes _ fs (RetrySettings.mk <$> setting fs "max_attempts" _ _
    <*> setting fs "initial_wait_seconds" _ _ <*> setting fs "max_wait_seconds" _ _
    <*> setting fs "multiplier" _ _ <*> setting fs "jitter" _ _)
  have hp {α : Type} (name : String) (fallback : Option α) (read : Reading α) :=
    proper_setting fs name fallback read
  refine ⟨fun s => ?_, ?_, (((((hp _ _ _).map _).seq (hp _ _ _)).seq (hp _ _ _)).seq
    (hp _ _ _)).seq (hp _ _ _)⟩
  · cases s
    simp only [Checked.eq_ok_iff_gives, Checked.gives_seq, Checked.gives_map]
    simp [Checked.Gives, declared, Field.plain, Field.own, setting_eq, -Bool.exists_bool]
  · simp [declared, Field.plain, Field.own, Field.problems, setting_eq]

/-- The reading of the retry settings is proper. -/
lemma proper_read (v : Value) : (RetrySettings.read v).Proper :=
  proper_of_composes composes (fun v ps h => by rw [RetrySettings.read, h]) v

/-- The reading of the retry settings is fieldwise, as that of a wait. -/
lemma fieldwise : Fieldwise declared RetrySettings.read :=
  fieldwise_of_composes composes fun v ps h => by rw [RetrySettings.read, h]

end RetrySettings

/-! ## The identity service -/

namespace IdentitySettings

/-- The fields of the section on the identity service. -/
def declared : List (Field IdentitySettings) :=
  [.plain "endpoint" none text endpoint,
    .plain "version" (some .v2) identityVersion version,
    .plain "credential_type" (some .password) credentialKind kind,
    .plain "identity" none text identity,
    .plain "secret" none text secret,
    .plain "tenant_name" (some none) (optional text) tenant,
    .plain "project_name" (some none) (optional text) project,
    .plain "domain_name" (some "Default") text domain,
    .plain "timeout_seconds" (some 30.0) (numberAbove 0) timeout,
    ⟨"retry", some {}, RetrySettings.read, retry⟩]

/-- Before the fields are compared with each other, the reading of the identity settings composes
the readings of their fields. -/
theorem composes (fs : List (String × Value)) :
    Composes declared fs (readEach (.record fs)) := by
  change Composes _ fs (IdentitySettings.mk <$> setting fs "endpoint" _ _
    <*> setting fs "version" _ _ <*> setting fs "credential_type" _ _ <*> setting fs "identity" _ _
    <*> setting fs "secret" _ _ <*> setting fs "tenant_name" _ _ <*> setting fs "project_name" _ _
    <*> setting fs "domain_name" _ _ <*> setting fs "timeout_seconds" _ _ <*> part fs "retry" _ _)
  have hp {α : Type} (name : String) (fallback : Option α) (read : Reading α) :=
    proper_setting fs name fallback read
  refine ⟨fun s => ?_, ?_, ((((((((((hp _ _ _).map _).seq (hp _ _ _)).seq (hp _ _ _)).seq
    (hp _ _ _)).seq (hp _ _ _)).seq (hp _ _ _)).seq (hp _ _ _)).seq (hp _ _ _)).seq
    (hp _ _ _)).seq (proper_part fs _ _ RetrySettings.proper_read)⟩
  · cases s
    simp only [Checked.eq_ok_iff_gives, Checked.gives_seq, Checked.gives_map]
    simp [Checked.Gives, declared, Field.plain, Field.own, setting_eq, part_eq]
  · simp [declared, Field.plain, Field.own, Field.problems, setting_eq, part_eq]

/-- Up to then it is proper. -/
lemma proper_readEach (v : Value) : (readEach v).Proper :=
  proper_of_composes composes (fun v ps h => by rw [readEach, h]) v

/-- The section is accepted if its fields are, and go together. -/
lemma read_eq_ok_iff {v : Value} {s : IdentitySettings} :
    IdentitySettings.read v = .ok s ↔ readEach v = .ok s ∧ s.conflicts = false := by
  unfold IdentitySettings.read
  cases readEach v with
  | error ps => simp
  | ok t => cases hc : t.conflicts <;> grind

/-- Fields that do not go together are the only problem of their section. -/
lemma read_of_conflicts {v : Value} {s : IdentitySettings} (h : readEach v = .ok s)
    (hc : s.conflicts = true) :
    IdentitySettings.read v = .error [⟨[], .conflict conflictReason⟩] := by
  unfold IdentitySettings.read
  rw [h]
  exact if_pos hc

/-- Otherwise the section has the problems of its fields. -/
lemma read_of_error {v : Value} {ps : List Problem} (h : readEach v = .error ps) :
    IdentitySettings.read v = .error ps := by
  unfold IdentitySettings.read
  rw [h]

/-- The reading of the identity settings is proper: if the fields pass, but not together, one
problem is named.

**Proof sketch.** Either a field has problems, and then these are all; or the fields pass, and then
there is one problem at most. -/
lemma proper_read (v : Value) : (IdentitySettings.read v).Proper := by
  cases h : readEach v with
  | error ps =>
    rw [read_of_error h, ← h]
    exact proper_readEach v
  | ok s =>
    cases hc : s.conflicts with
    | true =>
      rw [read_of_conflicts h hc]
      exact Checked.proper_error _ _
    | false =>
      rw [read_eq_ok_iff.2 ⟨h, hc⟩]
      exact Checked.proper_ok s

/-- **The settings of the identity service do not go together** if and only if all of them are fine
by themselves, and they combine version 3 with access keys.

**Proof sketch.** The problems of fields have paths that are not empty, so that a conflict, whose
path is empty, is told only if all fields are fine. Then what the fields combine to decides. -/
theorem conflict_mem_problems_iff {v : Value} {reason : String} :
    ⟨[], .conflict reason⟩ ∈ (IdentitySettings.read v).problems ↔ reason = conflictReason ∧
      ∃ gs, v = .record gs ∧ ∃ s, (∀ f ∈ declared, f.own (gs.lookup f.name) = .ok (f.get s)) ∧
        s.version = .v3 ∧ s.kind = .accessKey := by
  constructor
  · intro h
    cases hread : readEach v with
    | error ps =>
      rw [read_of_error hread, ← hread] at h
      cases v with
      | record gs =>
        -- all problems of fields have paths
        rw [(composes gs).problems_eq] at h
        obtain ⟨f, -, hf⟩ := List.mem_flatMap.1 h
        exact absurd (Field.head?_path_of_mem_problems hf) (by simp)
      | null | bool _ | int _ | float _ | text _ | list _ =>
        exact absurd (Problem.mk.inj (List.mem_singleton.1 h)).2 nofun
    | ok s =>
      cases hc : s.conflicts with
      | false =>
        rw [read_eq_ok_iff.2 ⟨hread, hc⟩] at h
        exact absurd h List.not_mem_nil
      | true =>
        rw [read_of_conflicts hread hc] at h
        cases v with
        | record gs =>
          refine ⟨by simpa [Checked.problems] using h, gs, rfl, s,
            ((composes gs).eq_ok_iff s).1 hread, ?_⟩
          simpa [conflicts] using hc
        | null | bool _ | int _ | float _ | text _ | list _ => exact absurd hread nofun
  · rintro ⟨rfl, gs, rfl, s, hs, hversion, hkind⟩
    rw [read_of_conflicts (((composes gs).eq_ok_iff s).2 hs) (by simp [conflicts, hversion, hkind])]
    exact List.mem_singleton_self _

/-- The reading of the identity settings is fieldwise as long as the fields are not compared with
each other. -/
lemma fieldwise : Fieldwise declared IdentitySettings.read := fun v s h =>
  fieldwise_of_composes composes (fun v ps h => by rw [readEach, h]) v s (read_eq_ok_iff.1 h).1

end IdentitySettings

/-! ## The whole configuration -/

namespace Settings

/-- The fields of the whole configuration. -/
def declared : List (Field Settings) :=
  [.plain "naming_prefix" (some "nodes") lead namingLead,
    ⟨"provision", some ProvisionTiming.default, ProvisionTiming.read, provision⟩,
    ⟨"teardown", some TeardownTiming.default, TeardownTiming.read, teardown⟩,
    ⟨"image", some ImageTiming.default, ImageTiming.read, image⟩,
    ⟨"cache", some {}, CacheSettings.read, cache⟩,
    ⟨"auth", some none, readIdentity, identity⟩]

/-- The fields that are declared at the top of a document have the names that are known there, in
this order. -/
lemma map_name_declared : declared.map Field.name = names := rfl

/-- A section on the identity service that is not null is read as such. -/
lemma read_of_readIdentity {v : Value} {t : IdentitySettings} (h : readIdentity v = .ok (some t)) :
    IdentitySettings.read v = .ok t := by
  have hmap {x : Checked IdentitySettings} (h : some <$> x = .ok (some t)) : x = .ok t := by
    simpa [Checked.eq_ok_iff_gives, Checked.gives_map] using h
  cases v with
  | null => exact absurd (Except.ok.inj h) nofun
  | bool _ | int _ | float _ | text _ | list _ | record _ => exact hmap h

/-- Only a null stands for no identity service. -/
lemma eq_null_of_readIdentity {v : Value} (h : readIdentity v = .ok none) : v = .null := by
  have hmap {x : Checked IdentitySettings} (h : some <$> x = .ok none) : False := by
    obtain ⟨t, -, ht⟩ := (Checked.gives_map _ _ _).1 (Checked.eq_ok_iff_gives.1 h)
    exact absurd ht nofun
  cases v with
  | null => rfl
  | bool _ | int _ | float _ | text _ | list _ | record _ => exact (hmap h).elim

/-- The identity settings may be null, which means that there are none. Otherwise their problems are
those of their own reading. -/
lemma mem_problems_readIdentity {v : Value} {p : Problem} :
    p ∈ (readIdentity v).problems ↔ v ≠ .null ∧ p ∈ (IdentitySettings.read v).problems := by
  have hmap (hne : v ≠ .null) (h : readIdentity v = some <$> IdentitySettings.read v) :
      p ∈ (readIdentity v).problems ↔ v ≠ .null ∧ p ∈ (IdentitySettings.read v).problems := by
    rw [h, Checked.problems_map, and_iff_right hne]
  cases v with
  | null => exact iff_of_false List.not_mem_nil fun h => h.1 rfl
  | bool _ | int _ | float _ | text _ | list _ | record _ => exact hmap nofun rfl

/-- The reading of identity settings that may be null is proper. -/
lemma proper_readIdentity (v : Value) : (readIdentity v).Proper := by
  cases v with
  | null => exact Checked.proper_ok none
  | bool _ | int _ | float _ | text _ | list _ | record _ =>
    exact (IdentitySettings.proper_read _).map some

/-- The reading of what is known at the top of a document composes the readings of its parts. -/
theorem composes (fs : List (String × Value)) : Composes declared fs (readKnown fs) := by
  unfold readKnown
  refine ⟨fun s => ?_, ?_, ((((((proper_setting _ _ _ _).map _).seq
    (proper_part _ _ _ (Timing.proper_read _ _ _))).seq
    (proper_part _ _ _ (Timing.proper_read _ _ _))).seq
    (proper_part _ _ _ (Timing.proper_read _ _ _))).seq
    (proper_part _ _ _ CacheSettings.proper_read)).seq (proper_part _ _ _ proper_readIdentity)⟩
  · cases s
    simp only [Checked.eq_ok_iff_gives, Checked.gives_seq, Checked.gives_map]
    simp [Checked.Gives, declared, Field.plain, Field.own, setting_eq, part_eq]
  · simp [declared, Field.plain, Field.own, Field.problems, setting_eq, part_eq]

/-- Nothing at the top of a document is unknown if and only if all names there are among those that
are declared. -/
lemma unknown_eq_nil_iff {fs : List (String × Value)} :
    unknown fs = [] ↔ ∀ x ∈ fs, x.1 ∈ names := by
  simp [unknown]

/-- The known settings are read without a problem and nothing else is given; or there are problems,
and all of them are told.

**Proof sketch.** The known settings are read first, and the unknown names are looked for in any
case. If there are problems of either kind, all of them are told; and a reading that failed has at
least one. -/
lemma read_cases (fs : List (String × Value)) :
    (∃ s, readKnown fs = .ok s ∧ unknown fs = [] ∧ Settings.read (.record fs) = .ok s) ∨
      (readKnown fs).problems ++ unknown fs ≠ [] ∧
        Settings.read (.record fs) = .error ((readKnown fs).problems ++ unknown fs) := by
  have hp := (composes fs).proper
  have hfields : fields "LifecycleConfig" (.record fs) = .ok fs := rfl
  unfold Settings.read
  rw [hfields]
  dsimp only
  cases hknown : readKnown fs with
  | ok s =>
    cases hunknown : unknown fs with
    | nil => exact Or.inl ⟨s, rfl, rfl, rfl⟩
    | cons p ps => exact Or.inr ⟨List.cons_ne_nil p ps, rfl⟩
  | error ps =>
    refine Or.inr ⟨fun he => ?_, rfl⟩
    have hps : ps = [] := (List.append_eq_nil_iff.1 he).1
    exact hp (hknown.trans (congrArg Except.error hps))

/-- **A configuration is accepted** if and only if all names in it are known and all fields are
accepted on their own; then it is put together of these. -/
theorem read_eq_ok_iff {fs : List (String × Value)} {s : Settings} :
    Settings.read (.record fs) = .ok s ↔ (∀ x ∈ fs, x.1 ∈ names) ∧
      ∀ f ∈ declared, f.own (fs.lookup f.name) = .ok (f.get s) := by
  rw [← unknown_eq_nil_iff, ← (composes fs).eq_ok_iff]
  rcases read_cases fs with ⟨t, hknown, hunknown, hread⟩ | ⟨hflawed, hread⟩
  · rw [hread, hknown, hunknown, and_iff_right rfl]
  · rw [hread]
    refine iff_of_false Checked.error_ne_ok fun ⟨hunknown, hknown⟩ => hflawed ?_
    rw [hknown, hunknown]
    rfl

/-- The reading of a document is fieldwise: beside the problems of its parts, it has those of the
names that are unknown. -/
lemma fieldwise : Fieldwise declared Settings.read := by
  intro v s h
  cases v with
  | record fs => exact ⟨fs, rfl, (read_eq_ok_iff.1 h).2⟩
  | null | bool _ | int _ | float _ | text _ | list _ => exact absurd h nofun

/-- **The problems of a configuration** are those of its fields, in the order in which they are
declared, and then the names that are not known, in the order in which they are given. -/
theorem problems_read (fs : List (String × Value)) :
    (Settings.read (.record fs)).problems = declared.flatMap (·.problems fs) ++ unknown fs := by
  rw [← (composes fs).problems_eq]
  rcases read_cases fs with ⟨s, hknown, hunknown, hread⟩ | ⟨-, hread⟩
  · rw [hread, hknown, hunknown]
    rfl
  · rw [hread]
    rfl

/-- The reading of a document is proper, whatever is unknown in it. -/
lemma proper_read (fs : List (String × Value)) : (Settings.read (.record fs)).Proper := by
  rcases read_cases fs with ⟨s, -, -, hread⟩ | ⟨hflawed, hread⟩
  · rw [hread]
    exact Checked.proper_ok s
  · rw [hread]
    exact fun he => hflawed (Except.error.inj he)

/-- **No section gets in the way of another one.** The problems that are told under the name of a
field are those that the field has on its own, in their order.

**Proof sketch.** What is unknown is told under other names, since it is not declared. Among the
declared fields, names are unique. -/
theorem filter_problems_read (fs : List (String × Value)) {f : Field Settings}
    (hf : f ∈ declared) :
    (Settings.read (.record fs)).problems.filter (·.path.head? = some f.name) = f.problems fs := by
  have hunknown : (unknown fs).filter (·.path.head? = some f.name) = [] := by
    refine List.filter_eq_nil_iff.2 fun p hp => ?_
    obtain ⟨x, hx, rfl⟩ := List.mem_map.1 hp
    have hname : f.name ∈ names := map_name_declared ▸ List.mem_map_of_mem hf
    have hnot : x.1 ∉ names := by simpa using (List.mem_filter.1 hx).2
    have hne : x.1 ≠ f.name := fun he => hnot (he ▸ hname)
    simpa using hne
  rw [problems_read, List.filter_append, hunknown, List.append_nil]
  exact filter_flatMap_problems fs (by decide) hf

/-- A problem is told under the name of a field if the field has it on its own. -/
lemma mem_problems_read_iff {fs : List (String × Value)} {f : Field Settings} (hf : f ∈ declared)
    {path : List String} {flaw : Flaw} :
    ⟨f.name :: path, flaw⟩ ∈ (Settings.read (.record fs)).problems ↔
      ⟨path, flaw⟩ ∈ (f.own (fs.lookup f.name)).problems := by
  rw [← Field.mem_problems_iff, ← filter_problems_read fs hf, List.mem_filter]
  exact (and_iff_left (decide_eq_true rfl)).symm

/-- **A conflict is told** if and only if there is a section on the identity service all of whose
fields are fine by themselves, and they combine version 3 with access keys.

**Proof sketch.** A problem below `auth` is one of the field of that name, and a conflict of the
identity service is told there with the name in front. What is left is the statement on the section
itself. -/
theorem conflict_mem_problems_iff {fs : List (String × Value)} {reason : String} :
    ⟨["auth"], .conflict reason⟩ ∈ (Settings.read (.record fs)).problems ↔
      reason = IdentitySettings.conflictReason ∧ ∃ gs, fs.lookup "auth" = some (.record gs) ∧
        ∃ t, (∀ f ∈ IdentitySettings.declared, f.own (gs.lookup f.name) = .ok (f.get t)) ∧
          t.version = .v3 ∧ t.kind = .accessKey := by
  let auth : Field Settings := ⟨"auth", some none, readIdentity, identity⟩
  have hauth : auth ∈ declared := by simp [declared, auth]
  have hown : ⟨["auth"], .conflict reason⟩ ∈ (Settings.read (.record fs)).problems ↔
      ⟨[], .conflict reason⟩ ∈ (auth.own (fs.lookup "auth")).problems := mem_problems_read_iff hauth
  rw [hown]
  cases hlookup : fs.lookup "auth" with
  | none => exact iff_of_false List.not_mem_nil (by simp)
  | some w =>
    change _ ∈ (readIdentity w).problems ↔ _
    rw [mem_problems_readIdentity, IdentitySettings.conflict_mem_problems_iff]
    constructor
    · rintro ⟨-, hreason, gs, rfl, ht⟩
      exact ⟨hreason, gs, rfl, ht⟩
    · rintro ⟨hreason, gs, hw, ht⟩
      obtain rfl := Option.some.inj hw
      exact ⟨nofun, hreason, gs, rfl, ht⟩

end Settings

end NodeKeeper.Config
