import NodeKeeper.Identity.Supplier
import NodeKeeper.Proofs.Session.Getting
import NodeKeeper.Proofs.Session.Joining

/-!
# The turns of those who ask for a token

A caller asks for the token of the active credentials, and looks at the one that it gets. If that
has expired, the caller asks again, and takes what comes then without another look.

## Main definitions

* `Supplier.Desk`, `Supplier.DeskMove` — the session of those who ask for tokens.
* `Supplier.Inspected` — what comes of looking at a token.
* `Supplier.Begun` — what comes of a first turn.
* `Supplier.conduct` — the conduct of callers that ask for a token.
* `Supplier.slow` — a supplier to try runs with.

## Main results

* `Supplier.inspect_spec`, `Supplier.begin_spec` — these are the ways in which turns can end.
-/

namespace NodeKeeper.Supplier

open Cache (Account Course History)

/-- Callers that ask a supplier for tokens, and the loads of these tokens. -/
abbrev Desk (σ τ : Type) : Type :=
  Session (World σ τ) Credentials (Issued τ) τ (Grant τ) Phase Credentials

/-- What can happen to those who ask a supplier for tokens. -/
abbrev DeskMove (σ τ : Type) : Type :=
  Session.Move (World σ τ) Credentials (Issued τ) τ (Grant τ) Phase

variable {σ τ : Type} [Add τ] [Sub τ] [LE τ] [DecidableLE τ]

/-! ## Looking at a token -/

/-- What comes of looking at a token: how the turn ends, and what becomes of the cache. -/
inductive Inspected (S : Supplier σ τ) (c : Credentials) (t : Issued τ) (st : Stage σ τ) :
    Turn (Issued τ) Phase Credentials → Cache Credentials (Issued τ) τ → Prop
  /-- The token has not expired. -/
  | valid (h : t.token.expired st.rest.wall S.margin = false) :
      Inspected S c t st (.done (.ok t)) st.cache
  /-- The cache holds the very token that has expired. It is dropped, and a load is started. -/
  | dropped (h : t.token.expired st.rest.wall S.margin = true) {held : Issued τ}
      (hl : (st.lookup c).1 = some held) (hs : held.serial = t.serial) :
      Inspected S c t st (.wait st.cache.nextLoad (some c) .second)
        ((st.cache.invalidate c).2.startLoad c)
  /-- The cache holds another token by now. -/
  | replaced (h : t.token.expired st.rest.wall S.margin = true) {held : Issued τ}
      (hl : (st.lookup c).1 = some held) (hs : held.serial ≠ t.serial) :
      Inspected S c t st (.done (.ok held)) st.cache
  /-- The cache holds none, and another one is on the way. -/
  | joined (h : t.token.expired st.rest.wall S.margin = true) (hl : (st.lookup c).1 = none)
      {l : Nat} (hf : st.cache.flight? c = some l) :
      Inspected S c t st (.wait l none .second) (st.cache.lookup st.now c).2
  /-- The cache holds none, and none is on the way. -/
  | started (h : t.token.expired st.rest.wall S.margin = true) (hl : (st.lookup c).1 = none)
      (hf : st.cache.flight? c = none) :
      Inspected S c t st (.wait st.cache.nextLoad (some c) .second)
        ((st.cache.lookup st.now c).2.startLoad c)

section Asking

omit [Sub τ]

/-- Asking again, with what shows. -/
lemma askAgain_of_some {c : Credentials} {st : Stage σ τ} {held : Issued τ}
    (hl : (st.lookup c).1 = some held) : askAgain c st = (.done (.ok held), st) := by
  have hsnd : (st.cache.lookup st.now c).2 = st.cache := Cache.lookup_snd_of_some hl
  have hlookup : st.cache.lookup st.now c = (some held, st.cache) := Prod.ext hl hsnd
  simp [askAgain, NodeKeeper.Stage.request, Cache.request, hlookup]

/-- Asking again, with a load on the way. -/
lemma askAgain_of_flight {c : Credentials} {st : Stage σ τ} {l : Nat}
    (hk : st.cache.kept? c = none) (hf : st.cache.flight? c = some l) :
    askAgain c st = (.wait l none .second, st) := by
  have hl := Cache.lookup_of_kept?_none hk st.now
  simp [askAgain, NodeKeeper.Stage.request, Cache.request, hl, hf]

/-- Asking again, with nothing there. -/
lemma askAgain_of_vacant {c : Credentials} {st : Stage σ τ} (hk : st.cache.kept? c = none)
    (hf : st.cache.flight? c = none) :
    askAgain c st = (.wait st.cache.nextLoad (some c) .second,
      { st with cache := st.cache.startLoad c }) := by
  have hl := Cache.lookup_of_kept?_none hk st.now
  simp [askAgain, NodeKeeper.Stage.request, Cache.request, hl, hf]

omit [Add τ] [LE τ] [DecidableLE τ] in
/-- Recording an event, or not recording it, changes nothing of a stage but its log. -/
lemma recordIf_eq (st : Stage σ τ) (b : Bool) (e : Log.Event) :
    ∃ log, NodeKeeper.Stage.recordIf st b e = { st with log } := by
  cases b with
  | true => exact ⟨_, rfl⟩
  | false => exact ⟨st.log, rfl⟩

omit [Add τ] [LE τ] [DecidableLE τ] in
/-- Events are added to the log one after the other. -/
lemma foldl_record (events : List Log.Event) (st : Stage σ τ) :
    events.foldl NodeKeeper.Stage.record st = { st with log := st.log ++ events } := by
  induction events generalizing st with
  | nil => simp
  | cons e es ih => simp [ih, NodeKeeper.Stage.record]

/-- The cache holds the very token that was seen: it is dropped. -/
lemma dropExpired_of_held {c : Credentials} {t held : Issued τ} {st : Stage σ τ}
    (hl : (st.lookup c).1 = some held) (hs : held.serial = t.serial) :
    ∃ log, dropExpired c t st =
      { st with cache := (st.cache.invalidate c).2, log } := by
  have hsnd : (st.cache.lookup st.now c).2 = st.cache := Cache.lookup_snd_of_some hl
  have hlookup : st.lookup c = (some held, st) :=
    Prod.ext hl (by simp [NodeKeeper.Stage.lookup, hsnd])
  rw [dropExpired, hlookup]
  simp only [hs, if_true]
  exact recordIf_eq _ _ _

/-- The cache holds another token: it stays. -/
lemma dropExpired_of_ne {c : Credentials} {t held : Issued τ} {st : Stage σ τ}
    (hl : (st.lookup c).1 = some held) (hs : held.serial ≠ t.serial) :
    dropExpired c t st = st := by
  have hsnd : (st.cache.lookup st.now c).2 = st.cache := Cache.lookup_snd_of_some hl
  have hlookup : st.lookup c = (some held, st) :=
    Prod.ext hl (by simp [NodeKeeper.Stage.lookup, hsnd])
  rw [dropExpired, hlookup]
  simp [hs]

/-- The cache holds no token. -/
lemma dropExpired_of_none {c : Credentials} {t : Issued τ} {st : Stage σ τ}
    (hl : (st.lookup c).1 = none) :
    dropExpired c t st = { st with cache := (st.cache.lookup st.now c).2 } := by
  have hlookup : st.lookup c = (none, { st with cache := (st.cache.lookup st.now c).2 }) :=
    Prod.ext hl rfl
  rw [dropExpired, hlookup]

end Asking

/-- **Looking at a token** comes to one of five ends.

**Proof sketch.** A token that has not expired is returned. If it has, the cache is asked whether it
still shows this token, another one, or none; and in the last case whether a load is on the way. -/
theorem inspect_spec (S : Supplier σ τ) (c : Credentials) (t : Issued τ) (st : Stage σ τ) :
    Inspected S c t st (S.inspect c t st).1 (S.inspect c t st).2.cache ∧
      (S.inspect c t st).2.rest = st.rest ∧ (S.inspect c t st).2.now = st.now := by
  unfold inspect
  by_cases hx : t.token.expired st.rest.wall S.margin = true
  · rw [if_pos hx]
    cases hl : (st.lookup c).1 with
    | some held =>
      by_cases hs : held.serial = t.serial
      · obtain ⟨log, hdrop⟩ := dropExpired_of_held hl hs
        rw [hdrop, askAgain_of_vacant (st.cache.kept?_invalidate c) (st.cache.flight?_invalidate c)]
        exact ⟨.dropped hx hl hs, rfl, rfl⟩
      · rw [dropExpired_of_ne hl hs, askAgain_of_some hl]
        exact ⟨.replaced hx hl hs, rfl, rfl⟩
    | none =>
      have hk : (st.cache.lookup st.now c).2.kept? c = none := Cache.kept?_lookup_of_none hl
      rw [dropExpired_of_none hl]
      cases hf : st.cache.flight? c with
      | some l =>
        rw [askAgain_of_flight hk (by simpa using hf)]
        exact ⟨.joined hx hl hf, rfl, rfl⟩
      | none =>
        rw [askAgain_of_vacant hk (by simpa using hf)]
        refine ⟨?_, rfl, rfl⟩
        simpa only [Cache.nextLoad_lookup] using Inspected.started hx hl hf
  · rw [if_neg hx]
    exact ⟨.valid (by simpa using hx), rfl, rfl⟩

/-! ## First turns -/

/-- What comes of a first turn: how it ends, and what becomes of the cache. -/
inductive Begun (S : Supplier σ τ) (st : Stage σ τ) :
    Turn (Issued τ) Phase Credentials → Cache Credentials (Issued τ) τ → Prop
  /-- The cache shows a token, which is looked at. -/
  | shown {t : Issued τ} (hl : (st.lookup st.rest.active).1 = some t) {next cache}
      (h : Inspected S st.rest.active t st next cache) : Begun S st next cache
  /-- The cache shows none, and one is on the way. -/
  | joined (hl : (st.lookup st.rest.active).1 = none) {l : Nat}
      (hf : st.cache.flight? st.rest.active = some l) :
      Begun S st (.wait l none (.first st.rest.active)) (st.cache.lookup st.now st.rest.active).2
  /-- The cache shows none, and none is on the way. -/
  | started (hl : (st.lookup st.rest.active).1 = none)
      (hf : st.cache.flight? st.rest.active = none) :
      Begun S st (.wait st.cache.nextLoad (some st.rest.active) (.first st.rest.active))
        ((st.cache.lookup st.now st.rest.active).2.startLoad st.rest.active)

/-- **A first turn** shows a token, or waits for one.

**Proof sketch.** The cases are those of `request_cases`: a token is shown, and looked at; a load is
on the way; or one is started. -/
theorem begin_spec (S : Supplier σ τ) (st : Stage σ τ) :
    Begun S st (S.begin st).1 (S.begin st).2.cache ∧
      (S.begin st).2.rest = st.rest ∧ (S.begin st).2.now = st.now := by
  have hrequest : st.request st.rest.active true =
      ((st.cache.request st.now st.rest.active true).1,
        { st with cache := (st.cache.request st.now st.rest.active true).2 }) := rfl
  unfold begin
  dsimp only
  rw [hrequest]
  rcases st.cache.request_cases st.now st.rest.active true with
    ⟨t, hl, hr⟩ | ⟨hl, ⟨l, hf, hr⟩ | ⟨hf, hr⟩⟩
  · rw [hr, Cache.lookup_snd_of_some hl]
    obtain ⟨hinspect, hframe⟩ := S.inspect_spec st.rest.active t st
    exact ⟨.shown hl hinspect, hframe⟩
  · rw [hr]
    exact ⟨.joined hl hf, rfl, rfl⟩
  · rw [hr]
    exact ⟨.started hl hf, rfl, rfl⟩

/-! ## Conduct -/

/-- What looking at a token adds to the history of the cache. -/
def inspectHistory (S : Supplier σ τ) (c : Credentials) (t : Issued τ) (st : Stage σ τ) :
    History Credentials (Issued τ) τ :=
  if t.token.expired st.rest.wall S.margin then
    match (st.lookup c).1, st.cache.flight? c with
    | some held, _ =>
      if held.serial = t.serial then
        [.started st.cache.nextLoad c, .asked c true, .dropped c]
      else [.asked c true]
    | none, some _ => [.asked c true]
    | none, none => [.started st.cache.nextLoad c, .asked c true]
  else []

/-- What a first turn adds to the history of the cache. -/
def beginHistory (S : Supplier σ τ) (st : Stage σ τ) : History Credentials (Issued τ) τ :=
  let c := st.rest.active
  match (st.lookup c).1, st.cache.flight? c with
  | some t, _ => S.inspectHistory c t st ++ [.asked c true]
  | none, some _ => [.asked c true]
  | none, none => [.started st.cache.nextLoad c, .asked c true]

section Conduct

variable {S : Supplier σ τ} {c : Credentials} {t : Issued τ} {st : Stage σ τ}
  {next : Turn (Issued τ) Phase Credentials} {cache : Cache Credentials (Issued τ) τ}

omit [Sub τ] in
/-- A key with a load on the way is asked for. -/
lemma course_ask_of_flight {l : Nat} (hf : st.cache.flight? c = some l)
    (flights : List (Account Credentials)) : Course (st.ledger flights) [.asked c true]
      ⟨st.now, (st.cache.lookup st.now c).2, flights⟩ :=
  .single (.ask (b := st.ledger flights) fun _ hn => absurd (hf.symm.trans hn) (by simp))

omit [Sub τ] in
/-- A key that shows is asked for. -/
lemma course_ask_of_some {held : Issued τ} (hl : (st.lookup c).1 = some held)
    (flights : List (Account Credentials)) :
    Course (st.ledger flights) [.asked c true] (st.ledger flights) := by
  have hask : Cache.Step (st.ledger flights) [.asked c true]
      ⟨st.now, (st.cache.lookup st.now c).2, flights⟩ :=
    .ask (b := st.ledger flights) fun hn => absurd (hl.symm.trans hn) (by simp)
  have hsame : (st.cache.lookup st.now c).2 = st.cache := Cache.lookup_snd_of_some hl
  have hcourse := Course.single hask
  rw [hsame] at hcourse
  exact hcourse

/-- **Looking at a token** is a course of the cache.

**Proof sketch.** The cases are those of the look at the token: nothing, a drop and then a start, or
a question that is answered, joins a load, or starts one. -/
lemma Inspected.course (h : Inspected S c t st next cache) (flights : List (Account Credentials)) :
    Course (st.ledger flights) (S.inspectHistory c t st)
      ⟨st.now, cache, flights ++ next.accounts id⟩ := by
  cases h with
  | valid hx =>
    rw [inspectHistory, hx, Turn.accounts, List.append_nil]
    exact Course.refl
  | @dropped hx held hl hs =>
    have hgone := Cache.lookup_of_kept?_none (st.cache.kept?_invalidate c) st.now
    have hdrop := Cache.Step.drop (st.ledger flights) c
    have hstart := Cache.Step.start (b := ⟨st.now, (st.cache.invalidate c).2, flights⟩) (k := c)
      (by rw [hgone]) (st.cache.flight?_invalidate c)
    rw [hgone] at hstart
    rw [inspectHistory, hl]
    simp only [hx, hs, if_true]
    exact (Course.single hdrop).step hstart
  | replaced hx hl hs =>
    rw [inspectHistory, hl, Turn.accounts, List.append_nil]
    simp only [hx, hs, if_true, if_false]
    exact course_ask_of_some hl flights
  | joined hx hl hf =>
    rw [inspectHistory, hl, hf]
    simpa [hx, Turn.accounts] using course_ask_of_flight hf flights
  | started hx hl hf =>
    rw [inspectHistory, hl, hf]
    simp only [hx, if_true]
    exact .single (.start (b := st.ledger flights) hl hf)

/-- **A first turn** is a course of the cache.

**Proof sketch.** The cases are those of the first turn, each with its events. -/
lemma Begun.course (h : Begun S st next cache) (flights : List (Account Credentials)) :
    Course (st.ledger flights) (S.beginHistory st)
      ⟨st.now, cache, flights ++ next.accounts id⟩ := by
  cases h with
  | shown hl hi =>
    simp only [beginHistory, hl]
    exact (course_ask_of_some hl flights).trans (hi.course flights)
  | joined hl hf =>
    simp only [beginHistory, hl, hf]
    simpa [Turn.accounts] using course_ask_of_flight hf flights
  | started hl hf =>
    simp only [beginHistory, hl, hf]
    exact .single (.start (b := st.ledger flights) hl hf)

end Conduct

/-- A caller that asks for a token touches the cache in its first turn, and once more if the token
that it waited for has expired. -/
def conduct (S : Supplier σ τ) : Session.Conduct S.client where
  key := id
  opening _ st := S.beginHistory st
  resuming phase r st :=
    match phase, r with
    | .first c, .ok t => S.inspectHistory c t st
    | _, _ => []
  settling _ _ _ := []
  start_now _ st := (S.begin_spec st).2.2
  start_course _ st flights := by
    obtain ⟨h, -, hnow⟩ := S.begin_spec st
    have hcourse := h.course flights
    rw [← hnow] at hcourse
    exact hcourse
  resume_now phase r st := by
    simp only [client, resume]
    split
    · exact (S.inspect_spec _ _ st).2.2
    · rfl
  resume_course phase r st flights := by
    simp only [client, resume]
    split
    · next c t =>
      obtain ⟨h, -, hnow⟩ := S.inspect_spec c t st
      have hcourse := h.course flights
      rw [← hnow] at hcourse
      exact hcourse
    · simp only [Turn.accounts, List.append_nil]
      exact Course.refl
  settle_now _ _ _ := rfl
  settle_course _ _ _ _ := Course.refl
  call_ledger c st flights := by
    simp only [client, call, foldl_record]
    rfl
  conclude_ledger c r st flights := by
    simp only [client, conclude]
    split
    · rfl
    · split <;> rfl

/-! ## Loads -/

section Shares

variable {S : Supplier σ τ} {c : Credentials} {t : Issued τ} {st : Stage σ τ}
  {next : Turn (Issued τ) Phase Credentials} {cache : Cache Credentials (Issued τ) τ} {l : Nat}
  {phase : Phase}

/-- A caller that comes to wait once it has looked at a token waits for a load that is there: one
that the cache shares, or one that it starts. -/
lemma Inspected.available (h : Inspected S c t st next cache) {job : Option Credentials}
    (hn : next = .wait l job phase) : Session.Available st.cache l job := by
  cases h with
  | joined hx hl hf =>
    obtain ⟨rfl, rfl, -⟩ := Turn.wait.inj hn
    exact ⟨c, Cache.mem_of_flight? hf⟩
  | dropped _ _ _ | started _ _ _ =>
    obtain ⟨rfl, rfl, -⟩ := Turn.wait.inj hn
    exact rfl
  | valid _ | replaced _ _ _ => exact absurd hn (by simp)

/-- So does a caller that comes to wait in its first turn. -/
lemma Begun.available (h : Begun S st next cache) {job : Option Credentials}
    (hn : next = .wait l job phase) : Session.Available st.cache l job := by
  cases h with
  | shown _ hi => exact hi.available hn
  | joined hl hf =>
    obtain ⟨rfl, rfl, -⟩ := Turn.wait.inj hn
    exact ⟨st.rest.active, Cache.mem_of_flight? hf⟩
  | started _ _ =>
    obtain ⟨rfl, rfl, -⟩ := Turn.wait.inj hn
    exact rfl

/-- Callers leave all jobs to the loads. -/
lemma Inspected.ne_errand (h : Inspected S c t st next cache) (job : Credentials) (phase : Phase) :
    next ≠ .errand job phase := by
  cases h <;> simp

/-- A caller that begins never decides to see to a job itself. -/
lemma Begun.ne_errand (h : Begun S st next cache) (job : Credentials) (phase : Phase) :
    next ≠ .errand job phase := by
  cases h with
  | shown _ hi => exact hi.ne_errand job phase
  | joined _ _ | started _ _ => simp

end Shares

/-- A supplier leaves it to loads to call the authenticator: in a first turn nobody does so
itself. -/
lemma begin_ne_errand (S : Supplier σ τ) (st : Stage σ τ) (job : Credentials) (phase : Phase) :
    (S.begin st).1 ≠ .errand job phase :=
  (S.begin_spec st).1.ne_errand job phase

/-- Nor does anybody in a turn after a load has ended. -/
lemma resume_ne_errand (S : Supplier σ τ) (phase : Phase) (r : Outcome (Issued τ)) (st : Stage σ τ)
    (job : Credentials) (phase' : Phase) : (S.resume phase r st).1 ≠ .errand job phase' := by
  unfold resume
  split
  · exact (S.inspect_spec _ _ st).1.ne_errand job phase'
  · simp

/-- A caller that asks for a token waits for the load that the cache shares, or starts one. -/
lemma shares (S : Supplier σ τ) : Session.Shares S.client where
  start _ st _ _ _ h := (S.begin_spec st).1.available h
  resume phase r st l job phase' h := by
    simp only [client, resume] at h
    split at h
    · exact (S.inspect_spec _ _ st).1.available h
    · exact absurd h (by simp)

/-! ## A supplier -/

/-- The credentials of a user. -/
def alice : Credentials := ⟨"alice", "s3cret", .password⟩

/-- A supplier for tokens that count as expired half a minute early. The first two answers have to
be waited for, all others come at once. -/
def slow : Supplier Nat Float where
  authenticate _ calls :=
    (match calls with
      | 0 => .gate "g1"
      | 1 => .gate "g2"
      | _ => .now ⟨none, [], .ok (.token ⟨.text "fresh", some 9000⟩)⟩, [], calls + 1)
  margin := 30
  logged := .float

end NodeKeeper.Supplier
