import NodeKeeper.Proofs.Identity.Accounts
import NodeKeeper.Proofs.Identity.Balance

/-!
# Tokens are asked for once per cause

However many callers notice that there is no token, or that it has expired, one load is started for
all of them. The next one needs a reason of its own.

## Main definitions

* `Supplier.Steady`, `Supplier.Thrifty` — what routine moves keep.
* `Supplier.allowance` — how many loads a caller may still start.

## Main results

* `Supplier.Thrifty.after` — every routine run keeps loads and reasons in balance.
* `Supplier.startedBy_le` — a caller starts two loads at most.
* `Supplier.authenticates_once` — after every routine run, loads were started once for each reason.
-/

namespace NodeKeeper.Supplier

open Session (Unladen failures gather opened startedBy)

/-! ## Runs -/

variable {σ τ : Type} [Add τ] [Sub τ] [LE τ] [DecidableLE τ]

/-- Callers ask for the token of these credentials, and leave all jobs to the loads. -/
structure Steady (S : Supplier σ τ) (k : Credentials) (s : Desk σ τ) : Prop where
  devoted : Devoted k s
  unladen : Unladen s
  valid : (s.ledger S.conduct.key).Valid

/-- What is counted in a session is balanced with the tokens that were dropped, and with the number
of times that the token was forgotten. -/
def Thrifty (k : Credentials) (base : Nat) (old gone : List Nat) (forgot : Nat) (s : Desk σ τ) :
    Prop :=
  Balanced k base old s.stage.cache s.stage.rest.nextSerial
    ⟨s.flights.length, failures s, forgot, gone⟩

variable {S : Supplier σ τ} {k : Credentials} {s : Desk σ τ} {base forgot : Nat}
  {old gone : List Nat}

/-- A session in which nothing has happened yet is steady, for the credentials that are active in
it. -/
lemma Steady.opened (now : τ) (ttl : Option τ) (name : String) (rest : World σ τ) :
    Steady S rest.active (opened now ttl name rest) where
  devoted := ⟨rfl, fun _ _ h => absurd h (by simp [Session.opened])⟩
  unladen := fun _ _ h => absurd h (by simp [Session.opened])
  valid := Cache.Ledger.Valid.new now ttl name

/-- A routine move leaves a session steady: the credentials stay the same, and nobody but the loads
sees to a job. -/
lemma Steady.move (H : Steady S k s) {m : DeskMove σ τ} (hm : S.isRoutine k s m = true) :
    Steady S k (s.move S.client m) where
  devoted := H.devoted.move H.unladen hm
  unladen := H.unladen.move (fun _ => S.begin_ne_errand) S.resume_ne_errand m
  valid := Session.valid_move S.conduct H.valid m

/-- Every routine move has its figures, with all tokens taken as old whose lifetime in the cache is
over by then. -/
lemma Steady.exists_accounted (H : Steady S k s) {m : DeskMove σ τ}
    (hm : S.isRoutine k s m = true) (old : List Nat) :
    ∃ x, Accounted S k (old ++ S.outlived s m) s m x :=
  Supplier.exists_accounted H.devoted H.unladen H.valid hm fun e he hf =>
    List.mem_append_right _ (List.mem_map.2 ⟨e, List.mem_filter.2 ⟨he, by simpa using hf⟩, rfl⟩)

/-- So does a routine run, move by move. -/
lemma Steady.after (H : Steady S k s) {ms : List (DeskMove σ τ)}
    (hm : S.isRoutineRun k s ms = true) : Steady S k (s.after S.client ms) := by
  induction ms generalizing s with
  | nil => exact H
  | cons m ms ih =>
    rw [isRoutineRun, Bool.and_eq_true] at hm
    exact ih (H.move hm.1) hm.2

namespace Thrifty

omit [Add τ] [Sub τ] [LE τ] [DecidableLE τ] in
/-- Nothing has been asked for yet.

**Proof sketch.** There is nothing in the cache and no load, so all conditions are about empty
lists. -/
lemma opened (now : τ) (ttl : Option τ) (name : String) (rest : World σ τ) :
    Thrifty rest.active 1 [] [] 0 (opened now ttl name rest : Desk σ τ) where
  tidy :=
    { coherent := Cache.Coherent.new ttl name
      entry_key := by simp [Session.opened]
      load_key := by simp [Session.opened]
      entry_lt := by simp [Session.opened]
      entry_not_mem := by simp
      gone_lt := by simp
      gone_nodup := List.nodup_nil
      old_lt := by simp }
  starts_le := Nat.le_trans (Nat.add_le_add_left (spare_le_one _ _ _) _) (by simp [Session.opened])

/-- **One routine move** keeps the balance.

**Proof sketch.** The move has its figures by `exists_accounted`, and the balance is kept by what
they say of the cache. -/
theorem move (H : Thrifty k base old gone forgot s) (hs : Steady S k s) {m : DeskMove σ τ}
    (hm : S.isRoutine k s m = true) :
    Thrifty k base (old ++ S.outlived s m) (gone ++ S.dropped s m)
      (forgot + (S.forgotten s m).length) (s.move S.client m) := by
  have houtlived (i) (hi : i ∈ S.outlived s m) :
      ∃ e ∈ s.stage.cache.entries, e.value.serial = i := by
    obtain ⟨e, he, rfl⟩ := List.mem_map.1 hi
    exact ⟨e, (List.mem_filter.1 he).1, rfl⟩
  obtain ⟨x, hx⟩ := hs.exists_accounted hm old
  have hbalanced := (Balanced.outlive H houtlived).changes hx.changes
  rw [Thrifty, hx.starts, hx.fails, hx.forgot, hx.dropped]
  exact hbalanced

/-- **Every routine run** keeps the balance.

**Proof sketch.** The induction is on the run, with `Thrifty.move` for the first move. -/
theorem after (H : Thrifty k base old gone forgot s) (hs : Steady S k s)
    {ms : List (DeskMove σ τ)} (hm : S.isRoutineRun k s ms = true) :
    Thrifty k base (old ++ gather S.client S.outlived s ms) (gone ++ gather S.client S.dropped s ms)
      (forgot + (gather S.client S.forgotten s ms).length) (s.after S.client ms) := by
  induction ms generalizing s old gone forgot with
  | nil => simpa [gather] using H
  | cons m ms ih =>
    rw [isRoutineRun, Bool.and_eq_true] at hm
    have hrest := ih (H.move hs hm.1) (hs.move hm.1) hm.2
    rw [gather, gather, gather, List.length_append, ← List.append_assoc, ← List.append_assoc,
      ← Nat.add_assoc]
    exact hrest

omit [Add τ] [Sub τ] [LE τ] [DecidableLE τ] in
/-- As long as there is a token in the cache, there is no other reason for a load.

**Proof sketch.** All that was started so far counts as the base. Nothing is spare, because the
cache has a token. -/
lemma restart (H : Thrifty k base old gone forgot s) {e : Cache.Entry Credentials (Issued τ) τ}
    (he : e ∈ s.stage.cache.entries) :
    Thrifty k (s.flights.length - failures s) [] [] 0 s where
  tidy :=
    { H.tidy with
      entry_not_mem := by simp
      gone_lt := by simp
      gone_nodup := List.nodup_nil
      old_lt := by simp }
  starts_le := by
    have hle : failures s ≤ s.flights.length := List.countP_le_length
    rw [spare_of_kept (H.tidy.kept? he) (by simp)]
    simp only [List.length_nil, List.toFinset_nil, Finset.card_empty]
    omega

end Thrifty

/-! ## What one caller starts -/

/-- How many loads a caller may still start: one for each time that it will ask. -/
def allowance {τ : Type} :
    Option (Caller Credentials (Issued τ) τ (Grant τ) Phase Credentials) → Nat
  | none | some (.fresh _) => 2
  | some (.waiting _ (.first _)) | some (.answered _ (.first _)) => 1
  | _ => 0

omit [Add τ] [Sub τ] [LE τ] [DecidableLE τ] in
/-- Who has taken a turn may ask once more at most, and only if it waits for its first load.

**Proof sketch.** The cases are those of the turn. Only those who wait for their first load may ask
again. -/
lemma allowance_of_leadsTo {next : Turn (Issued τ) Phase Credentials}
    {y : Caller Credentials (Issued τ) τ (Grant τ) Phase Credentials} (h : next.LeadsTo y) :
    allowance (some y) ≤ 1 ∧
      ((∀ l job phase, next = .wait l job phase → phase = .second) → allowance (some y) = 0) := by
  cases next with
  | done r =>
    rw [show y = .finished r from h]
    exact ⟨Nat.zero_le 1, fun _ => rfl⟩
  | wait l job phase =>
    rw [show y = .waiting l phase from h]
    cases phase with
    | first j => exact ⟨Nat.le_refl 1, fun hn => absurd (hn l job _ rfl) (by simp)⟩
    | opening | second => exact ⟨Nat.zero_le 1, fun _ => rfl⟩
  | errand job phase =>
    rcases h with rfl | ⟨r, rfl⟩
    · exact ⟨Nat.zero_le 1, fun _ => rfl⟩
    · exact ⟨Nat.zero_le 1, fun _ => rfl⟩

/-- Nobody gets a greater allowance by what others do.

**Proof sketch.** The cases are those of the step of the caller. A delivery leaves it as much as it
had while it waited, and a cancellation takes all from it. -/
lemma allowance_move_le {c : Nat} {m : DeskMove σ τ} (hm : m ≠ .turn (.caller c)) :
    allowance (s.move S.client m).callers[c]? ≤ allowance s.callers[c]? := by
  have hstep := Session.callerStep_move (C := S.client) (s := s) c m
  revert hstep
  generalize (s.move S.client m).callers[c]? = y
  generalize s.callers[c]? = x
  intro hstep
  cases hstep with
  | same => exact Nat.le_refl _
  | spawned _ => exact Nat.le_refl 2
  | cancelled _ => exact Nat.zero_le _
  | freed _ _ _ _ => exact Nat.le_refl 0
  | delivered phase _ =>
    cases phase with
    | first j => exact Nat.le_refl 1
    | opening | second => exact Nat.le_refl 0
  | began _ _ | resumed _ _ _ | settled _ _ _ _ | gaveUp => exact absurd rfl hm

/-- Who starts a load in its turn has the smaller allowance afterwards.

**Proof sketch.** A first turn starts at most one load, and leaves one that may be started later; to
be resumed starts at most one, and leaves none. In all other turns nothing is started. -/
lemma allowance_turnCaller (c : Nat) :
    ∃ n, (s.turnCaller S.client c).flights.length = s.flights.length + n ∧
      n + allowance (s.turnCaller S.client c).callers[c]? ≤ allowance s.callers[c]? := by
  have hidle (hf : ∀ phase, s.callers[c]? ≠ some (.fresh phase))
      (ha : ∀ r phase, s.callers[c]? ≠ some (.answered r phase)) :
      ∃ n, (s.turnCaller S.client c).flights.length = s.flights.length + n ∧
        n + allowance (s.turnCaller S.client c).callers[c]? ≤ allowance s.callers[c]? := by
    refine ⟨0, congrArg List.length (Session.flights_turnCaller hf ha), ?_⟩
    have hstep := Session.callerStep_turnCaller (C := S.client) (s := s) c
    rw [Nat.zero_add]
    revert hf ha hstep
    generalize (s.turnCaller S.client c).callers[c]? = y
    generalize s.callers[c]? = x
    intro hf ha hstep
    cases hstep with
    | same => exact Nat.le_refl _
    | began phase _ => exact absurd rfl (hf phase)
    | resumed r phase _ => exact absurd rfl (ha r phase)
    | settled _ _ _ _ | gaveUp => exact Nat.zero_le _
  cases hc : s.callers[c]? with
  | none => rw [← hc]; exact hidle (by simp [hc]) (by simp [hc])
  | some x =>
    cases x with
    | fresh phase =>
      obtain ⟨y, hy, hlead⟩ := Session.callers_follow_self (C := S.client)
        (s := { s with stage := (S.client.start phase s.stage).2 }) hc
        (S.client.start phase s.stage).1
      refine ⟨_, Session.length_flights_turnCaller_of_fresh hc, ?_⟩
      rw [Session.turnCaller_of_fresh hc, hy]
      exact Nat.add_le_add (Turn.starts_le_one _) (allowance_of_leadsTo hlead).1
    | answered r phase =>
      obtain ⟨y, hy, hlead⟩ := Session.callers_follow_self (C := S.client)
        (s := { s with stage := (S.client.resume phase r s.stage).2 }) hc
        (S.client.resume phase r s.stage).1
      refine ⟨_, Session.length_flights_turnCaller_of_answered hc, ?_⟩
      have hzero := (allowance_of_leadsTo hlead).2 fun l job phase' hn => resume_wait hn
      rw [Session.turnCaller_of_answered hc, hy, hzero]
      cases phase with
      | first j => exact Turn.starts_le_one _
      | opening | second => exact Nat.le_refl 0
    | waiting _ _ | held _ _ | freed _ _ _ | cancelled | finished _ =>
      rw [← hc]
      exact hidle (by simp [hc]) (by simp [hc])

/-- **A caller starts two loads at most**, one whenever it asks.

**Proof sketch.** Induction on the run. Only the turns of the caller count, and each of them uses up
as much of its allowance as it starts loads. -/
theorem startedBy_le (c : Nat) (s : Desk σ τ) (ms : List (DeskMove σ τ)) :
    startedBy S.client c s ms ≤ allowance s.callers[c]? := by
  induction ms generalizing s with
  | nil => exact Nat.zero_le _
  | cons m ms ih =>
    have hother (hm : m ≠ .turn (.caller c)) :
        startedBy S.client c (s.move S.client m) ms ≤ allowance s.callers[c]? :=
      Nat.le_trans (ih _) (allowance_move_le hm)
    cases m with
    | turn t =>
      cases t with
      | caller d =>
        rw [startedBy]
        by_cases hd : d = c
        · subst hd
          obtain ⟨n, hn, hown⟩ := allowance_turnCaller (S := S) (s := s) d
          have hrest := ih (s.turnCaller S.client d)
          rw [if_pos rfl]
          omega
        · rw [if_neg hd, Nat.zero_add]
          exact hother (by simp [hd])
      | load _ | deliver _ _ => exact hother (by simp)
    | spawn _ | cancel _ | release _ _ | edit _ | elapse _ | stir _ | schedule _ =>
      exact hother (by simp)

/-! ## One reload -/

/-- What is dropped as expired was found expired. -/
lemma mem_found_of_mem_dropped {ms : List (DeskMove σ τ)} {i : Nat}
    (hi : i ∈ gather S.client S.dropped s ms) : i ∈ gather S.client S.found s ms := by
  induction ms generalizing s with
  | nil => exact hi
  | cons m ms ih =>
    rw [gather, List.mem_append] at hi ⊢
    exact hi.imp (fun h => (List.mem_filter.1 h).1) ih

/-- Tokens are looked at in the turns of callers. -/
lemma exists_caller_of_found {m : DeskMove σ τ} {i : Nat} (hi : i ∈ S.found s m) :
    ∃ c, m = .turn (.caller c) := by
  cases m with
  | turn t =>
    cases t with
    | caller c => exact ⟨c, rfl⟩
    | load _ | deliver _ _ => exact absurd hi (by simp [found, inspected?])
  | spawn _ | cancel _ | release _ _ | edit _ | elapse _ | stir _ | schedule _ =>
    exact absurd hi (by simp [found, inspected?])

/-- A token that is neither dropped nor forgotten, and whose lifetime is not over, stays. -/
lemma kept?_move (hs : Steady S k s) {m : DeskMove σ τ} (hm : S.isRoutine k s m = true)
    {e : Cache.Entry Credentials (Issued τ) τ} (hk : s.stage.cache.kept? k = some e)
    (ho : S.outlived s m = []) (hf : S.forgotten s m = []) (hd : S.dropped s m = []) :
    (s.move S.client m).stage.cache.kept? k = some e := by
  obtain ⟨x, hx⟩ := hs.exists_accounted hm []
  have hchanges := hx.changes
  rw [ho, List.append_nil] at hchanges
  refine hchanges.kept? hs.valid.coherent hk ?_ ?_
  · rw [← hx.dropped, hd]
  · rw [← hx.forgot, hf]
    rfl

/-- A token in the cache that is found expired is dropped, and a load is started.

**Proof sketch.** As no lifetime in the cache came to its end in this move, the cache shows the
token. So it is dropped, by the figures of the move, and what is dropped is replaced by a load that
is started. -/
lemma lt_length_flights_of_found (hs : Steady S k s) {m : DeskMove σ τ}
    (hm : S.isRoutine k s m = true) {e : Cache.Entry Credentials (Issued τ) τ}
    (hk : s.stage.cache.kept? k = some e) (ho : S.outlived s m = [])
    (hf : e.value.serial ∈ S.found s m) :
    s.flights.length < (s.move S.client m).flights.length := by
  obtain ⟨x, hx⟩ := hs.exists_accounted hm []
  have hmem := (Cache.kept?_eq_some hk).1
  have hnow : (s.move S.client m).stage.now = s.stage.now := by
    obtain ⟨c, rfl⟩ := exists_caller_of_found hf
    exact (rest_turnCaller hs.unladen c).2
  have hfresh : s.stage.cache.isFresh s.stage.now e = true := by
    by_contra hnot
    have hold : e.value.serial ∈ S.outlived s m :=
      List.mem_map.2 ⟨e, List.mem_filter.2 ⟨hmem, by rw [hnow]; simpa using hnot⟩, rfl⟩
    rw [ho] at hold
    exact absurd hold (by simp)
  have hshows : shows s.stage s.stage.rest.active e.value.serial = true := by
    have hlookup := Cache.lookup_fst s.stage.cache s.stage.now k
    rw [hk, Option.bind_some, if_pos hfresh] at hlookup
    rw [hs.devoted.active, shows, show (s.stage.lookup k).1 = some e.value from hlookup]
    simp
  have hdropped : e.value.serial ∈ S.dropped s m := List.mem_filter.2 ⟨hf, hshows⟩
  have hstarts := hx.changes.length_dropped_le
  rw [← hx.dropped] at hstarts
  have hpos := List.length_pos_of_mem hdropped
  have hlength := hx.starts
  omega

/-- If a token in the cache is found expired, and nothing else becomes of it, a load is started.

**Proof sketch.** Until somebody finds the token expired it stays in the cache. Who finds it expired
first drops it. -/
lemma lt_length_flights_after (hs : Steady S k s) {ms : List (DeskMove σ τ)}
    (hm : S.isRoutineRun k s ms = true) {e : Cache.Entry Credentials (Issued τ) τ}
    (hk : s.stage.cache.kept? k = some e) (ho : gather S.client S.outlived s ms = [])
    (hf : gather S.client S.forgotten s ms = []) (hx : gather S.client S.found s ms ≠ [])
    (hsame : ∀ i ∈ gather S.client S.found s ms, i = e.value.serial) :
    s.flights.length < (s.after S.client ms).flights.length := by
  induction ms generalizing s with
  | nil => exact absurd rfl hx
  | cons m ms ih =>
    rw [isRoutineRun, Bool.and_eq_true] at hm
    rw [gather, List.append_eq_nil_iff] at ho hf
    rw [gather] at hx hsame
    cases hfound : S.found s m with
    | nil =>
      rw [hfound, List.nil_append] at hx hsame
      have hd : S.dropped s m = [] := by rw [dropped, hfound, List.filter_nil]
      have hrest := ih (hs.move hm.1) hm.2 (kept?_move hs hm.1 hk ho.1 hf.1 hd) ho.2 hf.2 hx hsame
      have hle := (Session.continued_move (C := S.client) (s := s) m).length_le
      exact Nat.lt_of_le_of_lt hle hrest
    | cons i is =>
      rw [hfound] at hsame
      have hi : e.value.serial ∈ S.found s m := by
        rw [hfound, ← hsame i (by simp)]
        exact List.mem_cons_self
      have hlt := lt_length_flights_of_found hs hm.1 hk ho.1 hi
      have hle := (Session.continued_after (C := S.client) (s := s.move S.client m) ms).length_le
      exact Nat.lt_of_lt_of_le hlt hle

/-- **One reload.** As long as a token in the cache is the only one that is found expired, however
often and by whom, and no load fails, one load is started.

**Proof sketch.** Some move finds the token in the cache expired, and starts a load, as in
`lt_length_flights_of_found`. No other one is started: the token is dropped at most once, and the
balance allows one load for that. -/
theorem length_flights_of_found (hs : Steady S k s) (H : Thrifty k base old gone forgot s)
    {ms : List (DeskMove σ τ)} (hm : S.isRoutineRun k s ms = true)
    {e : Cache.Entry Credentials (Issued τ) τ} (he : e ∈ s.stage.cache.entries)
    (hfail : failures (s.after S.client ms) = failures s)
    (ho : gather S.client S.outlived s ms = []) (hf : gather S.client S.forgotten s ms = [])
    (hx : gather S.client S.found s ms ≠ [])
    (hsame : ∀ i ∈ gather S.client S.found s ms, i = e.value.serial) :
    (s.after S.client ms).flights.length = s.flights.length + 1 := by
  have hk := H.tidy.kept? he
  have hlower := lt_length_flights_after hs hm hk ho hf hx hsame
  have hstart := H.restart he
  have hafter := hstart.after hs hm
  have hlength : (gather S.client S.dropped s ms).length ≤ 1 := by
    have hnodup := hafter.tidy.gone_nodup
    have hreplicate := List.eq_replicate_of_mem fun i (hi : i ∈ gather S.client S.dropped s ms) =>
      hsame i (mem_found_of_mem_dropped hi)
    rw [List.nil_append, hreplicate] at hnodup
    exact List.nodup_replicate.1 hnodup
  have hupper := hafter.starts_le
  have hle : failures s ≤ s.flights.length := List.countP_le_length
  simp only [List.nil_append, ho, hf, hfail, List.toFinset_nil, Finset.card_empty,
    List.length_nil] at hupper
  omega

/-! ## Runs of a supplier -/

/-- **Tokens are asked for once per cause.** As long as the credentials stay the same, the
authenticator is called once for each load at most, and loads are started once at the beginning and
once more for each load that failed, for each token that was found expired, for each token whose
lifetime in the cache came to its end, and for each time that the token was forgotten. A token is
dropped as expired at most once, and a caller starts two loads at most. If from then on a token in
the cache is the only one that is found expired, by however many callers, one load is started.

**Proof sketch.** The balance is kept after every routine run, by `Thrifty.after`, and gives the
bound on loads. Calls are paid for by loads, `startedBy_le` bounds those of one caller, and
`length_flights_of_found` is the last clause. -/
theorem authenticates_once (S : Supplier σ τ) (now : τ) (ttl : Option τ) (name : String)
    (rest : World σ τ) (ms : List (DeskMove σ τ))
    (hm : S.isRoutineRun rest.active (opened now ttl name rest) ms = true) :
    let s₀ : Desk σ τ := opened now ttl name rest
    let s := s₀.after S.client ms
    s.calls.length ≤ s.flights.length ∧
      s.flights.length ≤ 1 + failures s + (gather S.client S.found s₀ ms).toFinset.card +
        (gather S.client S.outlived s₀ ms).toFinset.card +
        (gather S.client S.forgotten s₀ ms).length ∧
      (gather S.client S.dropped s₀ ms).Nodup ∧
      (∀ c, startedBy S.client c s₀ ms ≤ 2) ∧
      ∀ e ∈ s.stage.cache.entries, ∀ ms', S.isRoutineRun rest.active s ms' = true →
        failures (s.after S.client ms') = failures s →
        gather S.client S.outlived s ms' = [] → gather S.client S.forgotten s ms' = [] →
        gather S.client S.found s ms' ≠ [] →
        (∀ i ∈ gather S.client S.found s ms', i = e.value.serial) →
        (s.after S.client ms').flights.length = s.flights.length + 1 := by
  intro s₀ s
  have hopened : Steady S rest.active s₀ := .opened now ttl name rest
  have hsteady : Steady S rest.active s := hopened.after hm
  have hthrifty := (Thrifty.opened now ttl name rest).after hopened hm
  have hpaid₀ : Session.Paid s₀ := List.Perm.refl []
  have hpaid : Session.Paid s :=
    hpaid₀.after (fun _ => S.begin_ne_errand) S.resume_ne_errand ms
  have hnodup : (gather S.client S.dropped s₀ ms).Nodup := hthrifty.tidy.gone_nodup
  refine ⟨Session.length_calls_le hpaid, ?_, hnodup, fun c => ?_, ?_⟩
  · have hdropped : (gather S.client S.dropped s₀ ms).length ≤
        (gather S.client S.found s₀ ms).toFinset.card := by
      rw [← List.toFinset_card_of_nodup hnodup]
      refine Finset.card_le_card fun i hi => ?_
      exact List.mem_toFinset.2 (mem_found_of_mem_dropped (List.mem_toFinset.1 hi))
    have hle := hthrifty.starts_le
    change s.flights.length + _ ≤ 1 + failures s + (gather S.client S.dropped s₀ ms).length +
      (gather S.client S.outlived s₀ ms).toFinset.card +
      (0 + (gather S.client S.forgotten s₀ ms).length) at hle
    omega
  · exact startedBy_le c s₀ ms
  · intro e he ms' hm' hfail ho hf hx hsame
    exact length_flights_of_found hsteady hthrifty hm' he hfail ho hf hx hsame

/-- Two callers wait for the same token, which has expired before they look at it. -/
def expiring : List (DeskMove Nat Float) :=
  [.spawn .opening, .spawn .opening, .turn (.caller 0), .turn (.caller 1), .turn (.load 0),
    .release "g1" ⟨none, [], .ok (.token ⟨.text "first", some 50⟩)⟩, .turn (.load 0),
    .turn (.deliver 0 0), .turn (.deliver 0 1), .stir fun w => { w with wall := 80 }]

/-- Both of them find the token expired, and one load is started. -/
theorem authenticates_once_expiring :
    let s := (opened 0 (some 3600) "tokens" ⟨alice, 0, 0, 0⟩).after slow.client expiring
    let ms : List (DeskMove Nat Float) := [.turn (.caller 0), .turn (.caller 1)]
    gather slow.client slow.found s ms = [0, 0] ∧
      (s.after slow.client ms).flights.length = s.flights.length + 1 := by
  have honce := authenticates_once slow 0 (some 3600) "tokens" ⟨alice, 0, 0, 0⟩ expiring rfl
  obtain ⟨-, -, -, -, hreload⟩ := honce
  refine ⟨rfl, hreload ⟨alice, ⟨⟨.text "first", some 50⟩, 0⟩, 0⟩ ?_ _ rfl rfl rfl rfl ?_ ?_⟩
  · exact List.mem_of_getElem? (i := 0) rfl
  · decide
  · decide

end NodeKeeper.Supplier
