import Mathlib.Tactic.ByContra
import NodeKeeper.Proofs.Node.Teardown

/-!
# The account of a cleanup

Once a node is gone its secondary resources are removed one after the other. None of them keeps the
others from being tried: a removal that fails is put down as a failure, one that succeeds is put
down as removed, and its cache entry is dropped. So what the teardown reports is a split of what was
listed, and the cache has lost what belongs to the resources that were removed.

## Main definitions

* `Cache.dropKeys` — a cache without certain keys.
* `Dismantler.Asked`, `Dismantler.removals`, `Dismantler.refusals` — what was asked for, and what of
  it was granted and refused.
* `Dismantler.ReachesCleanup` — a teardown gets as far as its secondary resources.

## Main results

* `Cache.dropKeys_append` — keys may be dropped one after the other.
* `Dismantler.removeOrphans_direct` — all removals of a list.
* `Dismantler.destroy_cleans` — what a teardown makes of its secondary resources.

## Implementation notes

The cache entry of a resource may belong to others as well. It is dropped as soon as one of these is
removed, whatever becomes of the others; hence it is the keys of the resources that were removed
that count, and not those of the ones that were refused.
-/

namespace NodeKeeper

open NodeKeeper.Flow (Meets)

/-! ## Dropping keys -/

namespace Cache

variable {κ ν τ : Type} [DecidableEq κ]

/-- A cache without certain keys: their entries are gone, and so are the loads of theirs that would
be shared; everything else stays. -/
def dropKeys (c : Cache κ ν τ) (ks : List κ) : Cache κ ν τ :=
  { c with
    entries := c.entries.filter fun e => e.key ∉ ks
    inFlight := c.inFlight.filter fun p => p.1 ∉ ks
    generation := fun k => c.generation k + ks.count k }

/-- A cache from which no key is dropped is as it was. -/
lemma dropKeys_nil (c : Cache κ ν τ) : c.dropKeys [] = c := by
  have hall {α : Type} (xs : List α) : xs.filter (fun _ => true) = xs :=
    List.filter_eq_self.2 fun _ _ => rfl
  simp [dropKeys, hall]

/-- Keys may be dropped one after the other. -/
lemma dropKeys_append (c : Cache κ ν τ) (ks js : List κ) :
    c.dropKeys (ks ++ js) = (c.dropKeys ks).dropKeys js := by
  simp only [dropKeys, List.filter_filter, List.mem_append, List.count_append, Nat.add_assoc,
    not_or, Bool.decide_and, Bool.and_comm]

/-- Dropping one key is dropping a list with this key alone. -/
lemma invalidate_snd (c : Cache κ ν τ) (k : κ) : (c.invalidate k).2 = c.dropKeys [k] := by
  have hcount (j : κ) : (if j = k then c.generation j + 1 else c.generation j) =
      c.generation j + [k].count j := by
    by_cases hj : j = k
    · simp [hj]
    · simp [hj, Ne.symm hj]
  simp [invalidate, supersede, dropEntry, dropKeys, hcount]

end Cache

variable {σ : Type} {env : Surroundings σ}

namespace Flow

/-- A call that fails. -/
lemma perform_of_error {c : Call} {w : World σ} {f : Fault}
    (h : (env.answer c w.backend).1.outcome = .error f) :
    ∃ w', World.perform env c w = (.raised f, w') ∧
      w'.history = w.history ++ [.called c (.error f)] ∧ w'.mind = w.mind := by
  unfold World.perform
  rcases hreply : env.answer c w.backend with ⟨⟨took, out⟩, backend⟩
  rw [hreply] at h
  obtain rfl : out = .error f := h
  cases took <;> exact ⟨_, rfl, rfl, rfl⟩

variable {ω α : Type} {x : Flow ω α} {w w' : ω}

/-- A flow may end with a note. -/
lemma note_bind_pure (level : Log.Level) (name : String) (fields : List (String × Value)) {α : Type}
    (a : α) (w : World σ) :
    ∃ w', (World.note level name fields >>= fun _ => (pure a : Flow (World σ) α)) w =
      (.returned a, w') ∧ w'.history = w.history ∧ w'.cache = w.cache :=
  ⟨_, rfl, rfl, rfl⟩

/-- A flow that returns still does once its faults are handled, with the outcome that says so. -/
lemma attempt_of_returned {a : α} (h : x w = (.returned a, w')) :
    x.attempt w = (.returned (.ok a), w') := by
  rw [attempt, h]

/-- A flow that fails returns its fault once its faults are handled. -/
lemma attempt_of_raised {f : Fault} (h : x w = (.raised f, w')) :
    x.attempt w = (.returned (.error f), w') := by
  rw [attempt, h]

end Flow

/-- Dropping a key is over at once. -/
lemma World.dropCached_apply (key : CacheKey) (w : World σ) :
    ∃ w', World.dropCached key w = (.returned (), w') ∧ w'.history = w.history ∧
      w'.cache = w.cache.map fun c => c.dropKeys [key] := by
  have hdrop := Meets.dropCached (σ := σ) (m := w.mind)
    (P := fun tr e m => tr = [] ∧ e = .returned () ∧
      m.cache = w.cache.map fun c => (c.invalidate key).2) key ⟨rfl, rfl, rfl⟩
  obtain ⟨_, hhistory, rfl, hreturned, hcache⟩ := hdrop w rfl
  simp only [Cache.invalidate_snd] at hcache
  exact ⟨_, Prod.ext hreturned rfl, hhistory.trans (List.append_nil _), hcache⟩

namespace Dismantler

/-! ## One removal -/

/-- Removals that were asked for, and what they came to. -/
abbrev Asked : Type := List (OrphanRef × Except Fault Value)

/-- What was removed. -/
def removals (asked : Asked) : List OrphanRef :=
  asked.filterMap fun
    | (ref, .ok _) => some ref
    | (_, .error _) => none

/-- What could not be removed, and why. -/
def refusals (asked : Asked) : List Fault :=
  asked.filterMap fun
    | (_, .ok _) => none
    | (ref, .error f) => some (.orphan ref f)

/-- The calls that were made. -/
def callsOf (asked : Asked) : List Happening :=
  asked.map fun (ref, out) => .called (.deleteOrphan ref) out

/-- The keys of the cache that belong to secondary resources. -/
def keysOf (refs : List OrphanRef) : List CacheKey := refs.filterMap OrphanRef.cacheKey

/-- An account to which more removals are added. -/
def Cleanup.add (so : Cleanup) (asked : Asked) : Cleanup :=
  ⟨so.removed ++ removals asked, so.failures ++ refusals asked⟩

/-- A resource that was removed is put down as such, behind all that were removed before. -/
lemma Cleanup.add_granted (so : Cleanup) (ref : OrphanRef) (a : Value) :
    so.add [(ref, .ok a)] = { so with removed := so.removed ++ [ref] } := by
  simp [add, removals, refusals]

/-- A resource that could not be removed is put down as a failure, with its fault. -/
lemma Cleanup.add_refused (so : Cleanup) (ref : OrphanRef) (f : Fault) :
    so.add [(ref, .error f)] = { so with failures := so.failures ++ [.orphan ref f] } := by
  simp [add, removals, refusals]

/-- What is put down in two parts is what is put down in one. -/
lemma Cleanup.add_append (so : Cleanup) (asked more : Asked) :
    so.add (asked ++ more) = (so.add asked).add more := by
  simp [Cleanup.add, removals, refusals]

/-- What was removed and what was not make up what was asked for. -/
lemma length_removals (asked : Asked) :
    (removals asked).length + (refusals asked).length = asked.length := by
  induction asked with
  | nil => rfl
  | cons p asked ih =>
    rcases p with ⟨ref, f | a⟩
    · simp only [removals, refusals, List.filterMap_cons, List.length_cons] at ih ⊢
      omega
    · simp only [removals, refusals, List.filterMap_cons, List.length_cons] at ih ⊢
      omega

/-- What removals do to a cache, if there is one. -/
def cleared (cache : Option ResourceCache) (asked : Asked) : Option ResourceCache :=
  cache.map fun c => c.dropKeys (keysOf (removals asked))

/-- If nothing was asked for, the cache is as it was. -/
lemma cleared_nil (cache : Option ResourceCache) : cleared cache [] = cache := by
  simp [cleared, keysOf, removals, Cache.dropKeys_nil]

/-- A resource that was removed takes its key from the cache, if it has one and there is a cache. -/
lemma cleared_granted (cache : Option ResourceCache) (ref : OrphanRef) (a : Value) :
    cleared cache [(ref, .ok a)] = cache.map fun c => c.dropKeys (keysOf [ref]) := rfl

/-- A resource that could not be removed takes nothing from the cache. -/
lemma cleared_refused (cache : Option ResourceCache) (ref : OrphanRef) (f : Fault) :
    cleared cache [(ref, .error f)] = cache := cleared_nil cache

/-- What is taken from the cache in two parts is what is taken in one. -/
lemma cleared_append (cache : Option ResourceCache) (asked more : Asked) :
    cleared cache (asked ++ more) = cleared (cleared cache asked) more := by
  simp [cleared, keysOf, removals, Cache.dropKeys_append, Option.map_map, Function.comp_def]

variable {bound : List (String × Value)}

/-- **One removal** makes its call, and the account says what came of it.

**Proof sketch.** If the call fails, the fault can be handled by assumption; it is put down, and the
cache is left alone. If it succeeds, the key of the resource is dropped, if it has one, and the
removal is put down. -/
lemma removeOrphan_direct (env : Surroundings σ) (bound : List (String × Value)) (ref : OrphanRef)
    (so : Cleanup) (w : World σ)
    (hcalm : ∀ f, (env.answer (.deleteOrphan ref) w.backend).1.outcome = .error f →
      f.isOrdinary = true) :
    ∃ out w', removeOrphan (.direct env) bound ref so w = (.returned (so.add [(ref, out)]), w') ∧
      w'.history = w.history ++ callsOf [(ref, out)] ∧
      w'.cache = cleared w.cache [(ref, out)] := by
  unfold removeOrphan
  rcases hout : (env.answer (.deleteOrphan ref) w.backend).1.outcome with f | a
  · obtain ⟨w₁, hcall, hhistory, hmind⟩ := Flow.perform_of_error hout
    have hcache : w₁.cache = w.cache := congrArg World.Mind.cache hmind
    have hfailed : (OrphanSource.direct env).remove ref w = (.raised f, w₁) :=
      Flow.bind_of_raised hcall
    rw [Flow.bind_of_returned (Flow.attempt_of_raised hfailed)]
    dsimp only
    rw [if_pos (hcalm f hout)]
    obtain ⟨w', hend, hsame, hkept⟩ := Flow.note_bind_pure _ _ _ _ w₁
    refine ⟨.error f, w', ?_, hsame.trans hhistory, ?_⟩
    · rw [Cleanup.add_refused]
      exact hend
    · rw [cleared_refused, hkept, hcache]
  · obtain ⟨w₁, hcall, hhistory, -, hmind⟩ := Flow.perform_of_ok hout
    have hcache : w₁.cache = w.cache := congrArg World.Mind.cache hmind
    have hremoved : (OrphanSource.direct env).remove ref w = (.returned (), w₁) :=
      Flow.bind_of_returned hcall
    rw [Flow.bind_of_returned (Flow.attempt_of_returned hremoved)]
    dsimp only
    refine ⟨.ok a, ?_⟩
    rw [cleared_granted, ← hcache, Cleanup.add_granted]
    cases hkey : ref.cacheKey with
    | none =>
      obtain ⟨w', hend, hsame, hkept⟩ := Flow.note_bind_pure _ _ _ _ w₁
      refine ⟨w', hend, hsame.trans hhistory, ?_⟩
      simp [hkept, keysOf, hkey, Cache.dropKeys_nil]
    | some key =>
      obtain ⟨w₂, hdrop, hsame, hdropped⟩ := World.dropCached_apply key w₁
      obtain ⟨w', hend, hsame', hkept⟩ := Flow.note_bind_pure _ _ _ _ w₂
      refine ⟨w', (Flow.bind_of_returned hdrop).trans hend, (hsame'.trans hsame).trans hhistory, ?_⟩
      simp [hkept, hdropped, keysOf, hkey]

/-- A removal that fails with a fault that cannot be handled ends there.

**Proof sketch.** The removal is one call, and its fault is passed on because it is not one that can
be handled. -/
lemma removeOrphan_of_cut (env : Surroundings σ) (bound : List (String × Value)) (ref : OrphanRef)
    (so : Cleanup) {w : World σ} {f : Fault}
    (hout : (env.answer (.deleteOrphan ref) w.backend).1.outcome = .error f)
    (hf : f.isOrdinary = false) :
    ∃ w', removeOrphan (.direct env) bound ref so w = (.raised f, w') ∧
      w'.history = w.history ++ [.called (.deleteOrphan ref) (.error f)] := by
  obtain ⟨w', hcall, hhistory, -⟩ := Flow.perform_of_error hout
  have hfailed : (OrphanSource.direct env).remove ref w = (.raised f, w') :=
    Flow.bind_of_raised hcall
  refine ⟨w', ?_, hhistory⟩
  unfold removeOrphan
  refine (Flow.bind_of_returned (Flow.attempt_of_raised hfailed)).trans ?_
  dsimp only
  rw [if_neg (by simp [hf])]
  rfl

/-- All calls to remove secondary resources that failed did so with faults that can be handled. -/
def Calm (history : List Happening) : Prop :=
  ∀ ref f, .called (.deleteOrphan ref) (.error f) ∈ history → f.isOrdinary = true

/-! ## All removals -/

/-- **Removals one after the other.** Each one is asked for once, in the order of the list.

**Proof sketch.** Induction on the resources. A fault of the first removal that could not be handled
would end the whole, and would be in the history; so it was handled, and the others follow with what
has been put down so far. -/
theorem removeOrphans_direct (env : Surroundings σ) (bound : List (String × Value))
    (refs : List OrphanRef) (so : Cleanup) (w : World σ)
    (hcalm : Calm (removeOrphans (.direct env) bound refs so w).2.history) :
    ∃ asked w', asked.map Prod.fst = refs ∧
      removeOrphans (.direct env) bound refs so w = (.returned (so.add asked), w') ∧
      w'.history = w.history ++ callsOf asked ∧ w'.cache = cleared w.cache asked := by
  induction refs generalizing so w with
  | nil => exact ⟨[], w, rfl, by simp [Cleanup.add, removals, refusals]; rfl, by simp [callsOf],
      (cleared_nil _).symm⟩
  | cons ref refs ih =>
    -- the first removal is handled, since otherwise its fault would be the last thing that happened
    have hfirstCalm : ∀ f, (env.answer (.deleteOrphan ref) w.backend).1.outcome = .error f →
        f.isOrdinary = true := by
      intro f hout
      by_contra hf
      obtain ⟨w', hcut, hhistory⟩ := removeOrphan_of_cut env bound ref so hout
        (Bool.eq_false_iff.2 hf)
      rw [removeOrphans, Flow.bind_of_raised hcut, hhistory] at hcalm
      exact hf (hcalm ref f (by simp))
    obtain ⟨out, w₁, hfirst, hhistory, hcache⟩ := removeOrphan_direct env bound ref so w hfirstCalm
    rw [removeOrphans, Flow.bind_of_returned hfirst] at hcalm ⊢
    obtain ⟨asked, w', hasked, hrest, hhistory', hcache'⟩ := ih (so.add [(ref, out)]) w₁ hcalm
    refine ⟨(ref, out) :: asked, w', by rw [List.map_cons, hasked], ?_, ?_, ?_⟩
    · rw [hrest, ← Cleanup.add_append]
      rfl
    · rw [hhistory', hhistory, List.append_assoc]
      rfl
    · rw [hcache', hcache, ← cleared_append]
      rfl

/-- A cleanup whose secondary resources can be listed.

**Proof sketch.** What follows the listing is the removal of what was listed, which
`removeOrphans_direct` describes, with nothing put down yet. -/
lemma cleanOrphans_of_listed (env : Surroundings σ) (bound : List (String × Value)) (name : Value)
    {refs : List OrphanRef} (w : World σ)
    (hlist : (env.answer (.listOrphans name) w.backend).1.outcome = .ok refs)
    (hcalm : Calm (cleanOrphans (.direct env) bound name w).2.history) :
    ∃ asked w', asked.map Prod.fst = refs ∧
      cleanOrphans (.direct env) bound name w =
        (.returned ⟨removals asked, refusals asked⟩, w') ∧
      w'.history = w.history ++ .called (.listOrphans name) (.ok refs) :: callsOf asked ∧
      w'.cache = cleared w.cache asked := by
  obtain ⟨w₁, hcall, hhistory, -, hmind⟩ := Flow.perform_of_ok (w := w.record _) hlist
  have hgoes : cleanOrphans (.direct env) bound name w =
      removeOrphans (.direct env) bound refs {} w₁ :=
    (Flow.note_bind_apply _ _ _).trans (Flow.bind_of_returned (Flow.attempt_of_returned hcall))
  rw [hgoes] at hcalm ⊢
  obtain ⟨asked, w', hasked, hrest, hhistory', hcache'⟩ :=
    removeOrphans_direct env bound refs {} w₁ hcalm
  refine ⟨asked, w', hasked, hrest, ?_, ?_⟩
  · rw [hhistory', hhistory, List.append_assoc]
    rfl
  · rw [hcache']
    exact congrArg (cleared · asked) (congrArg World.Mind.cache hmind)

/-- A cleanup whose secondary resources cannot be listed.

**Proof sketch.** The fault can be handled, so that it is put down as the failure of the listing
itself, and nothing is removed. -/
lemma cleanOrphans_of_unlisted (env : Surroundings σ) (bound : List (String × Value)) (name : Value)
    {f : Fault} (w : World σ)
    (hlist : (env.answer (.listOrphans name) w.backend).1.outcome = .error f)
    (hf : f.isOrdinary = true) :
    ∃ w', cleanOrphans (.direct env) bound name w =
        (.returned ⟨[], [.orphan { kind := "listing", id := name, name } f]⟩, w') ∧
      w'.history = w.history ++ [.called (.listOrphans name) (.error f)] ∧
      w'.cache = w.cache := by
  obtain ⟨w₁, hcall, hhistory, hmind⟩ := Flow.perform_of_error (w := w.record _) hlist
  obtain ⟨w', hend, hsame, hkept⟩ := Flow.note_bind_pure _ _ _ _ w₁
  refine ⟨w', ?_, hsame.trans hhistory, hkept.trans (congrArg World.Mind.cache hmind)⟩
  refine (Flow.note_bind_apply _ _ _).trans ?_
  refine (Flow.bind_of_returned (Flow.attempt_of_raised hcall)).trans ?_
  dsimp only
  rw [if_pos hf]
  exact hend

/-! ## A whole teardown -/

/-- A teardown gets as far as its secondary resources: the node was read, has a name and drained,
and its deletion went through. -/
inductive ReachesCleanup (d : Dismantler) (env : Surroundings σ) (horizon : Nat) (id : String)
    (w : World σ) : Value → World σ → Prop
  | intro {v name : Value} {w₁ w₂ w₃ : World σ}
      (hread : World.perform env (.get id) w = (.returned v, w₁)) (hv : v.isNull = false)
      (hname : d.nameOf v = .ok name)
      (hdrain : d.drain env horizon id [("resource_id", .text id)] { w₁ with seen := v } =
        (.returned (), w₂))
      (hdelete : d.delete env id w.now [("resource_id", .text id)] w₂ = (.returned (), w₃)) :
      ReachesCleanup d env horizon id w name w₃

namespace ReachesCleanup

variable {d : Dismantler} {horizon : Nat} {id : String} {w w' : World σ} {name : Value}

/-- Until then there was waiting and one deletion, and the cache was left alone.

**Proof sketch.** The first read and the drain are reads and pauses. The deletion is one call to
delete, with reads behind it. None of these touches the cache. -/
lemma spares (h : ReachesCleanup d env horizon id w name w') {q : Happening → Prop}
    (hwaits : ∀ x : Happening, x.isWait id = true → q x)
    (hdeletes : ∀ out, q (.called (.delete id) out)) :
    ∃ before, w'.history = w.history ++ before ∧ (∀ x ∈ before, q x) ∧ w'.cache = w.cache := by
  obtain @⟨v, _, w₁, w₂, _, hread, -, -, hdrain, hdelete⟩ := h
  obtain ⟨w₁', hread', hhistory, -, hmind⟩ := Flow.perform_of_ok (Flow.outcome_of_perform hread)
  obtain rfl : w₁' = w₁ := congrArg Prod.snd (hread'.symm.trans hread)
  obtain ⟨tr, htr, hcache, hwait⟩ := d.meets_drain_any env id _ horizon
    [("resource_id", .text id)] { w₁' with seen := v } rfl
  rw [hdrain] at htr hcache
  obtain ⟨tr', htr', hcache', hdeleted⟩ :=
    @meets_delete _ d env id _ w.now [("resource_id", .text id)] w₂ rfl
  rw [hdelete] at htr' hcache' hdeleted
  obtain ⟨out, rest, rfl, hrest⟩ := hdeleted.calls
  refine ⟨.called (.get id) (.ok v) :: (tr ++ .called (.delete id) out :: rest), ?_,
    fun x hx => ?_, ?_⟩
  · rw [htr', htr]
    simp [hhistory]
  · simp only [List.mem_cons, List.mem_append] at hx
    rcases hx with rfl | hx | rfl | hx
    · exact hwaits _ (by simp [Happening.isWait])
    · exact hwaits x (hwait x hx)
    · exact hdeletes out
    · exact hwaits x (hrest x hx)
  · calc w'.cache = w₂.cache := hcache'
      _ = w₁'.cache := hcache
      _ = w.cache := congrArg World.Mind.cache hmind

/-- No secondary resource was touched until then. -/
lemma untouched (h : ReachesCleanup d env horizon id w name w') :
    ∃ before, w'.history = w.history ++ before ∧ (∀ x ∈ before, x.isOrphanCall = false) ∧
      w'.cache = w.cache :=
  h.spares (fun _ hx => (Happening.of_isWait hx).2) fun _ => rfl

/-- The rest of the teardown is the cleanup and the report on it.

**Proof sketch.** The steps before the cleanup have their ends by assumption, and are bound one
after the other. -/
lemma destroy_eq (h : ReachesCleanup d env horizon id w name w')
    (source : OrphanSource (World σ)) :
    ∃ report : Cleanup → Flow (World σ) Dismantled,
      d.destroy env (some source) horizon id w =
        (cleanOrphans source [("resource_id", .text id)] name >>= report) w' ∧
      ∀ so w'', ∃ t w₃, report so w'' =
        (.returned ⟨id, true, t, so.removed, so.failures, .done⟩, w₃) ∧
        w₃.history = w''.history ∧ w₃.cache = w''.cache := by
  obtain ⟨hread, hv, hname, hdrain, hdelete⟩ := h
  rw [destroy_of_read _ horizon hread hv hname, Flow.bind_of_returned hdrain,
    Flow.bind_of_returned hdelete]
  exact ⟨_, rfl, fun so w'' => ⟨_, _, rfl, rfl, rfl⟩⟩

/-- Nothing happens after the cleanup.

**Proof sketch.** By `destroy_eq` only the report follows, which notes things in the log. -/
lemma history_destroy (h : ReachesCleanup d env horizon id w name w')
    (source : OrphanSource (World σ)) :
    (d.destroy env (some source) horizon id w).2.history =
      (cleanOrphans source [("resource_id", .text id)] name w').2.history := by
  obtain ⟨report, hgoes, hreport⟩ := h.destroy_eq source
  rw [hgoes]
  rcases hclean : cleanOrphans source [("resource_id", .text id)] name w' with ⟨so | f | _, w''⟩
  · obtain ⟨t, w₃, hend, hsame, -⟩ := hreport so w''
    rw [Flow.bind_of_returned hclean, hend]
    exact hsame
  · rw [Flow.bind_of_raised hclean]
  · rw [Flow.bind_of_unfinished hclean]

/-- What a teardown reports once its cleanup is over. -/
lemma destroy_of_cleaned (h : ReachesCleanup d env horizon id w name w')
    {source : OrphanSource (World σ)} {so : Cleanup} {w'' : World σ}
    (hclean : cleanOrphans source [("resource_id", .text id)] name w' = (.returned so, w'')) :
    ∃ t w₃, d.destroy env (some source) horizon id w =
        (.returned ⟨id, true, t, so.removed, so.failures, .done⟩, w₃) ∧
      w₃.history = w''.history ∧ w₃.cache = w''.cache := by
  obtain ⟨report, hgoes, hreport⟩ := h.destroy_eq source
  obtain ⟨t, w₃, hend, hsame⟩ := hreport so w''
  exact ⟨t, w₃, by rw [hgoes, Flow.bind_of_returned hclean, hend], hsame⟩

end ReachesCleanup

/-- **The account of a cleanup.** Suppose that a teardown gets as far as its secondary resources,
and that calls which remove them fail only with faults that can be handled. If the secondary
resources can be listed, each position of the list is asked for by one call, in that order; the
teardown returns, and what it reports as removed and as failed are the positions whose call
succeeded and failed, in that order, the latter with the reference and the fault; and the cache is
as it was before the teardown, less the keys of what was removed. If they cannot be listed, nothing
is asked for, the teardown returns with that one failure, and the cache is as before.

**Proof sketch.** By induction on the list: one removal adds its call to the history, its outcome to
the account, and takes its key from the cache if it succeeded. Until the cleanup starts, the
teardown reads, waits and deletes the node, which leaves the cache alone. -/
theorem destroy_cleans (d : Dismantler) (env : Surroundings σ) (horizon : Nat) (id : String)
    {w w₃ : World σ} {name : Value} (hreach : ReachesCleanup d env horizon id w name w₃)
    (hcalm : Calm (d.destroy env (some (.direct env)) horizon id w).2.history) :
    ∃ before, w₃.history = w.history ++ before ∧ (∀ x ∈ before, x.isOrphanCall = false) ∧
      (∀ refs, (env.answer (.listOrphans name) w₃.backend).1.outcome = .ok refs →
        ∃ asked t, asked.map Prod.fst = refs ∧
          (d.destroy env (some (.direct env)) horizon id w).1 =
            .returned ⟨id, true, t, removals asked, refusals asked, .done⟩ ∧
          (removals asked).length + (refusals asked).length = refs.length ∧
          (d.destroy env (some (.direct env)) horizon id w).2.history =
            w.history ++ (before ++ .called (.listOrphans name) (.ok refs) :: callsOf asked) ∧
          (d.destroy env (some (.direct env)) horizon id w).2.cache =
            w.cache.map fun c => c.dropKeys (keysOf (removals asked))) ∧
      ∀ f, (env.answer (.listOrphans name) w₃.backend).1.outcome = .error f →
        f.isOrdinary = true →
        ∃ t, (d.destroy env (some (.direct env)) horizon id w).1 =
            .returned ⟨id, true, t, [], [.orphan { kind := "listing", id := name, name } f],
              .done⟩ ∧
          (d.destroy env (some (.direct env)) horizon id w).2.history =
            w.history ++ (before ++ [.called (.listOrphans name) (.error f)]) ∧
          (d.destroy env (some (.direct env)) horizon id w).2.cache = w.cache := by
  obtain ⟨before, hbefore, hspared, hcache⟩ := hreach.untouched
  refine ⟨before, hbefore, hspared, fun refs hlist => ?_, fun f hlist hf => ?_⟩
  · obtain ⟨asked, w₄, hasked, hclean, hhistory, hcleared⟩ := cleanOrphans_of_listed env
      [("resource_id", .text id)] name w₃ hlist (hreach.history_destroy (.direct env) ▸ hcalm)
    obtain ⟨t, w₅, hend, hsame, hkept⟩ := hreach.destroy_of_cleaned hclean
    rw [hend]
    refine ⟨asked, t, hasked, rfl, ?_, ?_, ?_⟩
    · rw [length_removals, ← hasked, List.length_map]
    · rw [hsame, hhistory, hbefore, List.append_assoc]
    · rw [hkept, hcleared, hcache]
      rfl
  · obtain ⟨w₄, hclean, hhistory, hsame⟩ := cleanOrphans_of_unlisted env
      [("resource_id", .text id)] name w₃ hlist hf
    obtain ⟨t, w₅, hend, hsame', hkept⟩ := hreach.destroy_of_cleaned hclean
    rw [hend]
    refine ⟨t, rfl, ?_, hkept.trans (hsame.trans hcache)⟩
    rw [hsame', hhistory, hbefore, List.append_assoc]

/-- A volume, a snapshot of it that shares its cache entry, and an address. The snapshot and the
address cannot be removed. -/
def sharing : Script where
  states := [⟨none, .ok (.int 0)⟩, ⟨none, .ok (.int 0)⟩, ⟨none, .ok .null⟩]
  deleted := [⟨none, .ok (.bool true)⟩]
  orphans := ⟨none, .ok [⟨"volume", .int 1, .text "", some (.text "disk")⟩,
    ⟨"snapshot", .int 2, .text "", some (.text "disk")⟩,
    ⟨"address", .int 3, .text "", some (.text "net")⟩]⟩
  removal
    | .int 1 => ⟨none, .ok .null⟩
    | _ => ⟨none, .error (.plain .connection none)⟩

/-- The world of such a node, with a cache that knows the disk, the address, and more. -/
def shelved : World Script where
  backend := sharing
  cache := some { entries := [⟨.text "disk", .null, 0.0⟩, ⟨.text "net", .null, 0.0⟩,
    ⟨.text "image", .null, 0.0⟩] }

/-- The wait until the node has drained. -/
def sweptDrain : Ending Unit × World Script :=
  counting.drain Script.surroundings 5 "node-1" [("resource_id", .text "node-1")]
    { (World.perform Script.surroundings (.get "node-1") shelved).2 with seen := .int 0 }

/-- The deletion of the node. -/
def sweptDelete : Ending Unit × World Script :=
  counting.delete Script.surroundings "node-1" shelved.now [("resource_id", .text "node-1")]
    sweptDrain.2

/-- The teardown of such a node. -/
def swept : Ending Dismantled × World Script :=
  counting.destroy Script.surroundings (some (.direct Script.surroundings)) 5 "node-1" shelved

/-- The disk is dropped from the cache although the snapshot could not be removed; the address and
everything else stays.

**Proof sketch.** The theorem is applied to this teardown. The phases before its cleanup, the faults
in its history, and the number of its resources are computed. -/
theorem destroy_cleans_sharing :
    (∃ asked t, swept.1 = .returned ⟨"node-1", true, t, removals asked, refusals asked, .done⟩ ∧
      (removals asked).length + (refusals asked).length = 3 ∧
      swept.2.cache = shelved.cache.map fun c => c.dropKeys (keysOf (removals asked))) ∧
    swept.2.cache.map (fun c => c.entries.map Cache.Entry.key) =
      some [.text "net", .text "image"] := by
  refine ⟨?_, by decide +kernel⟩
  have hdrain : sweptDrain.1.result? = some () := by decide +kernel
  have hdelete : sweptDelete.1.result? = some () := by decide +kernel
  have hreach : ReachesCleanup counting Script.surroundings 5 "node-1" shelved (.text "node")
      sweptDelete.2 :=
    .intro (v := .int 0) rfl rfl rfl (Prod.ext (Ending.eq_returned_of_result? hdrain) rfl)
      (Prod.ext (Ending.eq_returned_of_result? hdelete) rfl)
  have hfaults : swept.2.history.all (fun h => h.fault?.all Fault.isOrdinary) = true := by
    decide +kernel
  have hcalm : Calm swept.2.history := by
    intro ref f hf
    have hordinary := List.all_eq_true.1 hfaults _ hf
    simpa [Happening.fault?] using hordinary
  have hlist : ((Script.surroundings.answer (.listOrphans (.text "node"))
      sweptDelete.2.backend).1.outcome.toOption.map List.length) = some 3 := by decide +kernel
  obtain ⟨before, -, -, hlisted, -⟩ :=
    destroy_cleans counting Script.surroundings 5 "node-1" hreach hcalm
  cases hrefs : (Script.surroundings.answer (.listOrphans (.text "node"))
      sweptDelete.2.backend).1.outcome with
  | error f => simp [hrefs, Except.toOption] at hlist
  | ok refs =>
    obtain ⟨asked, t, -, hend, hlength, -, hcache⟩ := hlisted refs hrefs
    have hthree : refs.length = 3 := by simpa [hrefs, Except.toOption] using hlist
    exact ⟨asked, t, hend, hlength.trans hthree, hcache⟩

end Dismantler

end NodeKeeper
