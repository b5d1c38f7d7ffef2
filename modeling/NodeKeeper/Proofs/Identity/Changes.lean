import Mathlib.Algebra.Group.Defs
import NodeKeeper.Proofs.Identity.Turns
import NodeKeeper.Proofs.Session.Tally

/-!
# What a supplier does to its cache

As long as the active credentials stay the same, all that happens to the cache of a supplier
concerns the token of these credentials: a load is started, fails or is granted a token, and the
token is dropped or forgotten, or its lifetime in the cache is over. Every turn and every edit is
put together of such changes, and each of them has its figures.

## Main definitions

* `Supplier.isRoutine`, `Supplier.isRoutineRun` — the credentials stay the same in a move, or in a
  run, and nothing but their token is forgotten.
* `Supplier.found`, `Supplier.dropped`, `Supplier.outlived` — tokens that a move finds expired, that
  it drops for that reason, and whose lifetime in the cache is over.
* `Supplier.Change`, `Supplier.Changes` — what can happen to the cache, once and any number of
  times.

## Main results

* `Supplier.Inspected.changes`, `Supplier.Begun.changes` — the changes that come with a turn.
* `Supplier.changes_foldl_apply` — the changes that come with edits.

## Implementation notes

A change does not speak of the clock. What matters is which of the tokens have reached the end of
their lifetime; these are given by their serial numbers.
-/

namespace NodeKeeper.Supplier

variable {σ τ : Type} [Add τ] [Sub τ] [LE τ] [DecidableLE τ]

/-! ## Moves -/

section Moves

variable (S : Supplier σ τ)

/-- The answer that a load lands with if it takes its turn now. -/
def answer? (s : Desk σ τ) (l : Nat) : Option (Answer Credentials (Issued τ) τ (Grant τ)) :=
  match s.flights[l]? with
  | none => none
  | some f =>
    match f.progress with
    | .fresh =>
      match (s.ask S.client f.job).1 with
      | .now a => some a
      | .gate _ => none
    | .freed a => some a
    | .held | .landed _ => none

/-- What is done to the cache from outside in a move: at once, or while an answer comes in. -/
def edits (s : Desk σ τ) : DeskMove σ τ → List (Edit Credentials (Issued τ))
  | .edit e => [e]
  | .turn (.load l) => (S.answer? s l).elim [] Answer.edits
  | _ => []

/-- The cache is only looked at, or the token of some credentials is forgotten. -/
def isAbout (k : Credentials) : Edit Credentials (Issued τ) → Bool
  | .invalidate j => j == k
  | .lookup _ | .keys => true
  | .put _ _ | .invalidateAll => false

/-- In a move, the credentials stay active, nothing but their token is forgotten, and no serial
number is taken. -/
def isRoutine (k : Credentials) (s : Desk σ τ) : DeskMove σ τ → Bool
  | .stir f =>
    (f s.stage.rest).active == k && (f s.stage.rest).nextSerial == s.stage.rest.nextSerial
  | m => (S.edits s m).all (isAbout k)

/-- So it is in every move of a run. -/
def isRoutineRun (k : Credentials) (s : Desk σ τ) : List (DeskMove σ τ) → Bool
  | [] => true
  | m :: ms => S.isRoutine k s m && isRoutineRun k (s.move S.client m) ms

/-- The token of some credentials is forgotten. -/
def forgets : Edit Credentials (Issued τ) → Bool
  | .invalidate _ => true
  | .lookup _ | .keys | .put _ _ | .invalidateAll => false

/-- The tokens that are forgotten in a move. -/
def forgotten (s : Desk σ τ) (m : DeskMove σ τ) : List (Edit Credentials (Issued τ)) :=
  (S.edits s m).filter forgets

/-- The token that a move looks at. -/
def inspected? (s : Desk σ τ) : DeskMove σ τ → Option (Issued τ)
  | .turn (.caller c) =>
    match s.callers[c]? with
    | some (.fresh _) => (s.stage.lookup s.stage.rest.active).1
    | some (.answered (.ok t) (.first _)) => some t
    | _ => none
  | _ => none

/-- The serial number of a token that has expired. -/
def expiredSerial (st : Stage σ τ) (t : Issued τ) : List Nat :=
  if t.token.expired st.rest.wall S.margin then [t.serial] else []

/-- The serial number of the token that a move finds expired. -/
def found (s : Desk σ τ) (m : DeskMove σ τ) : List Nat :=
  (inspected? s m).elim [] (S.expiredSerial s.stage)

/-- The cache shows the token of a serial number. -/
def shows (st : Stage σ τ) (c : Credentials) (n : Nat) : Bool :=
  (st.lookup c).1.any fun held => held.serial == n

/-- The serial number of the token that a move drops as expired: the cache shows it until then. -/
def dropped (s : Desk σ τ) (m : DeskMove σ τ) : List Nat :=
  (S.found s m).filter (shows s.stage s.stage.rest.active)

/-- The serial numbers of the tokens whose lifetime in the cache is over once a move has been
made. -/
def outlived (s : Desk σ τ) (m : DeskMove σ τ) : List Nat :=
  (s.stage.cache.entries.filter fun e =>
    !s.stage.cache.isFresh (s.move S.client m).stage.now e).map fun e => e.value.serial

end Moves

/-! ## Figures -/

/-- What is counted: loads that are started, loads that fail, tokens that are forgotten, and tokens
that are dropped as expired. -/
@[ext]
structure Figures where
  starts : Nat := 0
  fails : Nat := 0
  forgot : Nat := 0
  dropped : List Nat := []

namespace Figures

instance : Zero Figures := ⟨{}⟩

instance : Add Figures where
  add x y := ⟨x.starts + y.starts, x.fails + y.fails, x.forgot + y.forgot, x.dropped ++ y.dropped⟩

instance : AddMonoid Figures where
  zero_add _ := Figures.ext (Nat.zero_add _) (Nat.zero_add _) (Nat.zero_add _) rfl
  add_zero _ := Figures.ext rfl rfl rfl (List.append_nil _)
  add_assoc _ _ _ := Figures.ext (Nat.add_assoc ..) (Nat.add_assoc ..) (Nat.add_assoc ..)
    (List.append_assoc ..)
  nsmul := nsmulRec

/-- The loads that are started in two changes are added. -/
@[simp] lemma starts_add (x y : Figures) : (x + y).starts = x.starts + y.starts := rfl
/-- So are the loads that fail. -/
@[simp] lemma fails_add (x y : Figures) : (x + y).fails = x.fails + y.fails := rfl
/-- So are the times that the token is forgotten. -/
@[simp] lemma forgot_add (x y : Figures) : (x + y).forgot = x.forgot + y.forgot := rfl
/-- The tokens that are dropped as expired are listed one after the other. -/
@[simp] lemma dropped_add (x y : Figures) : (x + y).dropped = x.dropped ++ y.dropped := rfl

/-- Where nothing is counted, no load is started. -/
@[simp] lemma starts_zero : (0 : Figures).starts = 0 := rfl
/-- Where nothing is counted, no load fails. -/
@[simp] lemma fails_zero : (0 : Figures).fails = 0 := rfl
/-- Where nothing is counted, no token is forgotten. -/
@[simp] lemma forgot_zero : (0 : Figures).forgot = 0 := rfl
/-- Where nothing is counted, no token is dropped. -/
@[simp] lemma dropped_zero : (0 : Figures).dropped = [] := rfl

end Figures

/-! ## Changes of the cache -/

/-- What can happen to the cache and to the next serial number, with its figures, while the tokens
of some serial numbers have reached the end of their lifetime. -/
inductive Change (k : Credentials) (old : List Nat) (c : Cache Credentials (Issued τ) τ) (n : Nat) :
    Figures → Cache Credentials (Issued τ) τ → Nat → Prop
  /-- Entries are lost that have reached the end of their lifetime. -/
  | shed {p : Cache.Entry Credentials (Issued τ) τ → Bool}
      (h : ∀ e ∈ c.entries, p e = false → e.value.serial ∈ old) :
      Change k old c n {} { c with entries := c.entries.filter p } n
  | forgot : Change k old c n { forgot := 1 } (c.invalidate k).2 n
  | started (hk : c.kept? k = none) (hf : c.flight? k = none) :
      Change k old c n { starts := 1 } (c.startLoad k) n
  /-- A token that has expired is dropped, and a load is started. -/
  | renewed {e : Cache.Entry Credentials (Issued τ) τ} (hk : c.kept? k = some e) :
      Change k old c n { starts := 1, dropped := [e.value.serial] }
        ((c.invalidate k).2.startLoad k) n
  | failed {load : Cache.Load Credentials} (hm : load ∈ c.loads) :
      Change k old c n { fails := 1 } (c.dropLoad load) n
  | granted {load : Cache.Load Credentials} (hm : load ∈ c.loads) {t : Issued τ}
      (ht : t.serial = n) (now : τ) :
      Change k old c n {} (c.finish now load (some t)).2 (n + 1)

/-- Any number of changes, with the figures of all of them. -/
inductive Changes (k : Credentials) (old : List Nat) (c : Cache Credentials (Issued τ) τ)
    (n : Nat) : Figures → Cache Credentials (Issued τ) τ → Nat → Prop
  | refl : Changes k old c n 0 c n
  | step {x y : Figures} {c' c'' : Cache Credentials (Issued τ) τ} {n' n'' : Nat}
      (hc : Changes k old c n x c' n') (h : Change k old c' n' y c'' n'') :
      Changes k old c n (x + y) c'' n''

variable {k : Credentials} {old : List Nat} {c c' c'' : Cache Credentials (Issued τ) τ}
  {n n' n'' : Nat} {x y : Figures}

section

omit [Add τ] [Sub τ] [LE τ] [DecidableLE τ]

/-- One change is a run of changes, with its own figures. -/
lemma Changes.single (h : Change k old c n x c' n') : Changes k old c n x c' n' := by
  simpa using Changes.refl.step h

/-- Changes that follow on changes are changes, and their figures are added. -/
lemma Changes.trans (h : Changes k old c n x c' n') (h' : Changes k old c' n' y c'' n'') :
    Changes k old c n (x + y) c'' n'' := by
  induction h' with
  | refl => simpa using h
  | step _ h' ih =>
    rw [← add_assoc]
    exact ih.step h'

/-- The tables of the cache stay in step. -/
lemma Change.coherent (h : Change k old c n x c' n') (H : c.Coherent) : c'.Coherent := by
  cases h with
  | shed h => exact H.filterEntries _
  | forgot => exact H.invalidate k
  | started hk hf => exact H.startLoad hk (Cache.flight?_eq_none.1 hf)
  | renewed hk =>
    exact (H.invalidate k).startLoad (c.kept?_invalidate k)
      (Cache.flight?_eq_none.1 (c.flight?_invalidate k))
  | failed hm => exact H.dropLoad hm
  | granted hm ht now => exact H.finish hm now _

/-- Changes leave the cache coherent, since each of them is one of its operations. -/
lemma Changes.coherent (h : Changes k old c n x c' n') (H : c.Coherent) : c'.Coherent := by
  induction h with
  | refl => exact H
  | step _ h ih => exact h.coherent ih

/-- Whenever a token is dropped, a load is started. -/
lemma Change.length_dropped_le (h : Change k old c n x c' n') : x.dropped.length ≤ x.starts := by
  cases h <;> simp

/-- For every token that is dropped as expired a load is started, so there are at least as many of
these. -/
lemma Changes.length_dropped_le (h : Changes k old c n x c' n') :
    x.dropped.length ≤ x.starts := by
  induction h with
  | refl => exact Nat.le_refl 0
  | step _ h ih =>
    have hlast := h.length_dropped_le
    rw [Figures.dropped_add, Figures.starts_add, List.length_append]
    omega

/-- A token that is neither dropped nor forgotten, and whose lifetime is not over, stays.

**Proof sketch.** Entries are shed only if they are old, and dropped only by changes that say so. A
load that ends with a token is none of the same credentials, since it would have been superseded. -/
lemma Change.kept? (h : Change k [] c n x c' n') (H : c.Coherent)
    {e : Cache.Entry Credentials (Issued τ) τ} (hk : c.kept? k = some e) (hd : x.dropped = [])
    (hf : x.forgot = 0) : c'.kept? k = some e := by
  obtain ⟨he, rfl⟩ := Cache.kept?_eq_some hk
  cases h with
  | @shed p hlost =>
    have hp : p e = true := by
      by_contra hp
      exact absurd (hlost e he (by simpa using hp)) (by simp)
    have hcoherent := H.filterEntries p
    exact Cache.kept?_key hcoherent.entry_unique (List.mem_filter.2 ⟨he, hp⟩)
  | forgot => exact absurd hf (by simp)
  | started hk' _ => exact absurd (hk.symm.trans hk') (by simp)
  | renewed _ => exact absurd hd (by simp)
  | failed _ => exact hk
  | @granted load hm t ht now =>
    unfold Cache.finish
    dsimp only
    split
    · next hg =>
      -- a load of the same key would have been superseded
      have hne : load.key ≠ e.key := fun hkey =>
        H.apart e he _ ((H.current_iff hm).1 hg.symm) hkey
      exact (Cache.kept?_install c now load.key e.key t).trans ((if_neg hne).trans hk)
    · exact hk

/-- A token that is neither forgotten nor dropped, and whose lifetime is not over, is kept
throughout the changes. -/
lemma Changes.kept? (h : Changes k [] c n x c' n') (H : c.Coherent)
    {e : Cache.Entry Credentials (Issued τ) τ} (hk : c.kept? k = some e) (hd : x.dropped = [])
    (hf : x.forgot = 0) : c'.kept? k = some e := by
  induction h with
  | refl => exact hk
  | step hc h ih =>
    rw [Figures.dropped_add, List.append_eq_nil_iff] at hd
    rw [Figures.forgot_add, Nat.add_eq_zero_iff] at hf
    exact h.kept? (hc.coherent H) (ih hd.1 hf.1) hd.2 hf.2

end

section Turns

variable {S : Supplier σ τ}

omit [Sub τ] in
/-- Those entries that are lost have reached the end of their lifetime. -/
lemma Change.of_sheds {now : τ} (h : c.Sheds now c')
    (ho : ∀ e ∈ c.entries, c.isFresh now e = false → e.value.serial ∈ old) :
    Change k old c n 0 c' n := by
  obtain ⟨p, rfl, hlost⟩ := h
  exact .shed fun e he hpe => ho e he (hlost e he hpe)

/-- The changes that come with looking at a token.

**Proof sketch.** The cases are those of the look at the token. Only if the cache shows the token
that has expired, it is dropped, and counted as such; a look may also shed old entries. -/
lemma Inspected.changes {t : Issued τ} {st : Stage σ τ} {next : Turn (Issued τ) Phase Credentials}
    {cache : Cache Credentials (Issued τ) τ} (h : Inspected S k t st next cache)
    (hu : (st.cache.entries.map Cache.Entry.key).Nodup)
    (ho : ∀ e ∈ st.cache.entries, st.cache.isFresh st.now e = false → e.value.serial ∈ old) :
    Changes k old st.cache n
      { starts := next.starts, dropped := (S.expiredSerial st t).filter (shows st k) } cache n := by
  have hlookup : Changes k old st.cache n 0 (st.cache.lookup st.now k).2 n :=
    .single (.of_sheds (Cache.sheds_lookup hu st.now k) ho)
  cases h with
  | valid hx =>
    rw [expiredSerial, hx]
    exact .refl
  | @dropped hx held hl hs =>
    obtain ⟨e, hk, rfl⟩ := Cache.exists_kept?_of_lookup hl
    have hd : [t.serial].filter (shows st k) = [e.value.serial] := by simp [shows, hl, hs]
    rw [expiredSerial, if_pos hx, hd]
    exact .single (.renewed hk)
  | replaced hx hl hs =>
    have hd : [t.serial].filter (shows st k) = [] := by simp [shows, hl, hs]
    rw [expiredSerial, if_pos hx, hd]
    exact .refl
  | joined hx hl hf =>
    have hd : [t.serial].filter (shows st k) = [] := by simp [shows, hl]
    rw [expiredSerial, if_pos hx, hd]
    exact hlookup
  | started hx hl hf =>
    have hd : [t.serial].filter (shows st k) = [] := by simp [shows, hl]
    rw [expiredSerial, if_pos hx, hd]
    exact hlookup.step (.started (Cache.kept?_lookup_of_none hl) (by simpa using hf))

/-- The changes that come with a first turn.

**Proof sketch.** If a token is shown, it is looked at as in `Inspected.changes`. If not, old
entries may be shed, and a load may be started. -/
lemma Begun.changes {st : Stage σ τ} {next : Turn (Issued τ) Phase Credentials}
    {cache : Cache Credentials (Issued τ) τ} (h : Begun S st next cache)
    (hu : (st.cache.entries.map Cache.Entry.key).Nodup)
    (ho : ∀ e ∈ st.cache.entries, st.cache.isFresh st.now e = false → e.value.serial ∈ old) :
    Changes st.rest.active old st.cache n
      { starts := next.starts
        dropped := ((st.lookup st.rest.active).1.elim [] (S.expiredSerial st)).filter
          (shows st st.rest.active) } cache n := by
  have hlookup : Changes st.rest.active old st.cache n 0
      (st.cache.lookup st.now st.rest.active).2 n :=
    .single (.of_sheds (Cache.sheds_lookup hu st.now _) ho)
  cases h with
  | shown hl hi =>
    rw [hl]
    exact hi.changes hu ho
  | joined hl hf =>
    rw [hl]
    exact hlookup
  | started hl hf =>
    rw [hl]
    exact hlookup.step (.started (Cache.kept?_lookup_of_none hl) (by simpa using hf))

end Turns

section Edits

omit [Sub τ]

/-- The changes that come with an edit. Those entries that are left are as old as they were.

**Proof sketch.** The edits that are allowed are to look at keys, which sheds old entries at most,
and to drop the credentials, which counts as forgetting them. -/
lemma changes_apply {e : Edit Credentials (Issued τ)} (he : isAbout k e = true) {st : Stage σ τ}
    (hu : (st.cache.entries.map Cache.Entry.key).Nodup)
    (ho : ∀ e ∈ st.cache.entries, st.cache.isFresh st.now e = false → e.value.serial ∈ old) :
    Changes k old st.cache n { forgot := ([e].filter forgets).length } (st.apply e).cache n ∧
      ∀ e' ∈ (st.apply e).cache.entries, (st.apply e).cache.isFresh st.now e' = false →
        e'.value.serial ∈ old := by
  have hsheds {cache : Cache Credentials (Issued τ) τ} (h : st.cache.Sheds st.now cache) :
      Changes k old st.cache n 0 cache n ∧
        ∀ e' ∈ cache.entries, cache.isFresh st.now e' = false → e'.value.serial ∈ old := by
    refine ⟨.single (.of_sheds h ho), ?_⟩
    obtain ⟨p, rfl, -⟩ := h
    exact fun e' he' => ho e' (List.mem_filter.1 he').1
  cases e with
  | invalidate j =>
    obtain rfl : j = k := by simpa [isAbout] using he
    have hcache : (st.invalidate j).cache = (st.cache.invalidate j).2 :=
      congrArg Cache.Ledger.cache (Stage.ledger_recordIf _ _ _ [])
    rw [Stage.apply, hcache]
    exact ⟨.single .forgot, fun e' he' => ho e' (List.mem_filter.1 he').1⟩
  | lookup j => exact hsheds (Cache.sheds_lookup hu st.now j)
  | keys => exact hsheds (Cache.sheds_keys st.cache st.now)
  | put _ _ | invalidateAll => exact absurd he (by simp [isAbout])

/-- The changes that come with edits, one after the other.

**Proof sketch.** Induction on the edits; what has become old stays so, as an edit takes no time. -/
lemma changes_foldl_apply {es : List (Edit Credentials (Issued τ))}
    (hes : es.all (isAbout k) = true) {st : Stage σ τ} (H : st.cache.Coherent)
    (ho : ∀ e ∈ st.cache.entries, st.cache.isFresh st.now e = false → e.value.serial ∈ old) :
    Changes k old st.cache n { forgot := (es.filter forgets).length }
      (es.foldl Stage.apply st).cache n := by
  induction es generalizing st with
  | nil => exact .refl
  | cons e es ih =>
    rw [List.all_cons, Bool.and_eq_true] at hes
    obtain ⟨hfirst, hold⟩ := changes_apply (n := n) hes.1 H.entry_unique ho
    rw [← st.now_apply e] at hold
    have hrest := ih hes.2 (hfirst.coherent H) hold
    have hsum : ({ forgot := ((e :: es).filter forgets).length } : Figures) =
        { forgot := ([e].filter forgets).length } + { forgot := (es.filter forgets).length } := by
      rw [← List.singleton_append, List.filter_append, List.length_append]
      rfl
    rw [hsum, List.foldl_cons]
    exact hfirst.trans hrest

end Edits

end NodeKeeper.Supplier
