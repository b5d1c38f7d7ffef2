import NodeKeeper.Proofs.Naming.Recognition
import NodeKeeper.Proofs.Session.Getting
import NodeKeeper.Proofs.Session.Launching
import NodeKeeper.Provider.KeyPairs

/-!
# Key pairs that were dropped

The key pair of a group may be dropped at any time, also while it is being created. Whatever was on
its way then stays out of the cache, and who asks for the key pair next has a new one created. It
takes a creation on request, or somebody beside the callers, to bring a key pair in between.

## Main definitions

* `KeyPairs.conduct` — the conduct of those who create and get key pairs.
* `KeyPairs.Placed` — in a run, a key pair of a group was created on request or put by others.
* `KeyPairs.Sought` — in a run, somebody began to get the key pair of a group.
* `KeyPairs.Creates` — in a turn, a key pair is created under the name of an order.
* `KeyPairs.Commissions` — a caller has a load started, which creates a key pair.
* `KeyPairs.Forgotten` — what becomes of a group whose key pair was dropped.

## Main results

* `KeyPairs.creates_of_asks` — who asks outside for what an order needs creates a key pair.
* `KeyPairs.completes_of_put` — who puts a key pair in the cache.
* `KeyPairs.seeks_of_started` — who starts a load of a key pair.
* `KeyPairs.forgotten_of_invalidate` — a group is forgotten once its key pair was dropped.
-/

namespace NodeKeeper

/-- What a caller wants, as long as it has not finished. -/
def Caller.phase? {κ ν τ α φ δ : Type} : Caller κ ν τ α φ δ → Option φ
  | .fresh phase | .waiting _ phase | .answered _ phase | .held _ phase | .freed _ _ phase =>
    some phase
  | .cancelled | .finished _ => none

namespace KeyPairs

open Cache (Course)
open Session (Asks Conduct Earns Fed Launches Move Plays Yields events history opened)

variable {σ τ : Type}

/-- Those who create and get key pairs, and the loads of these key pairs. -/
abbrev Store (σ τ : Type) : Type := Session σ CacheKey Value τ Value Request Order

/-- What can happen to those who create and get key pairs. -/
abbrev StoreMove (σ τ : Type) : Type := Move σ CacheKey Value τ Value Request

/-- Two groups have the same key in the cache only if they are one group: the key is the region and
the shared name, and the name determines the group. -/
lemma keyFor_inj {P : KeyPairs σ τ} {g h : String} : P.keyFor g = P.keyFor h ↔ g = h := by
  simp [keyFor, placeOf, Naming.sharedName_inj]

variable [Add τ] [LE τ] [DecidableLE τ]

/-! ## Conduct -/

/-- Who gets a key pair asks for it in its first turn, and who has created one on request puts it in
the end. -/
def conduct (P : KeyPairs σ τ) : Conduct P.client where
  key job := P.keyFor job.group
  opening
    | .create _, _ => []
    | .get group, st => st.cache.askHistory st.now (P.keyFor group) true
  resuming _ _ _ := []
  settling
    | .create group, .ok pair, st => [.put (P.keyFor group) pair st.now]
    | _, _, _ => []
  start_now request st := by
    cases request with
    | create group => rfl
    | get group =>
      simp only [client, begin, Stage.request]
      rcases st.cache.request st.now (P.keyFor group) true with ⟨_ | _ | _ | _, _⟩ <;> rfl
  start_course request st flights := by
    cases request with
    | create group =>
      simp only [client, begin, Turn.accounts, List.append_nil]
      exact Course.refl
    | get group =>
      have hc := st.cache.course_request st.now (P.keyFor group) true flights
      simp only [client, begin, Stage.request]
      rcases hr : st.cache.request st.now (P.keyFor group) true with ⟨_ | _ | _ | _, _⟩
      all_goals
        simp only [hr] at hc
        exact hc
  resume_now _ _ _ := rfl
  resume_course _ _ st flights := by
    rw [client, Turn.accounts, List.append_nil]
    exact Course.refl
  settle_now request r st := by
    cases request <;> cases r <;> rfl
  settle_course request r st flights := by
    cases request with
    | get group => exact Course.refl
    | create group =>
      cases r with
      | error f => exact Course.refl
      | ok pair => exact .single (.put (st.ledger flights) (P.keyFor group) pair)
  call_ledger _ _ _ := rfl
  conclude_ledger job r st flights := by
    simp only [client, conclude]
    split
    · rfl
    · split <;> rfl

/-! ## Who creates key pairs -/

section Creating

variable (P : KeyPairs σ τ)

/-- In a turn, somebody creates a key pair under the name of an order. The order is noted down, the
creation is called with this name and with the world as it is then, and the turn leaves the world as
the call does. The call has a response. -/
structure Creates (s : Store σ τ) (t : Task) (order : Order)
    (r : Response CacheKey Value τ Value) : Prop where
  notes : (s.turn P.client t).calls = s.calls ++ [order]
  creates : ∃ st, Asks P.client s t order st ∧
    P.create order.name st.rest = (r, (s.turn P.client t).stage.rest)

/-- A caller starts a load and waits for it, and the load creates a key pair in its first turn,
whatever happens before. -/
structure Commissions (s : Store σ τ) (c : Nat) (order : Order) (request : Request) : Prop where
  launches : Launches P.client s c order request
  creates : ∀ ms, .turn (.load s.flights.length) ∉ ms → ∃ r,
    Creates P ((s.turnCaller P.client c).after P.client ms) (.load s.flights.length) order r

variable {P} {s : Store σ τ}

omit [Add τ] [LE τ] [DecidableLE τ] in
/-- What is made of the answer to an order does not touch the world that created the key pair. -/
lemma rest_conclude (job : Order) (r : Outcome Value) (st : Stage σ τ) :
    (P.conclude job r st).2.rest = st.rest := by
  unfold conclude
  split
  · rfl
  · split <;> rfl

omit [Add τ] [LE τ] [DecidableLE τ] in
/-- Nor does the one who has ordered the key pair, whether it is kept or not. -/
lemma rest_settle (request : Request) (r : Outcome Value) (st : Stage σ τ) :
    (P.settle request r st).2.rest = st.rest := by
  cases request <;> cases r <;> rfl

/-- **Who asks outside for what an order needs** creates a key pair under its name, and the response
is the one of this creation. -/
theorem creates_of_asks {t : Task} {order : Order} {st : Stage σ τ}
    (h : Asks P.client s t order st) : Creates P s t order (P.client.call order st).1 where
  notes := h.calls_turn
  creates := by
    refine ⟨st, h, ?_⟩
    have hworld := h.view_turn id rest_conclude rest_settle
    exact Prod.ext rfl hworld.symm

end Creating

/-! ## Who brings key pairs -/

section Bringing

variable (P : KeyPairs σ τ)

/-- In a move, a caller that creates a key pair of a group on request finishes with it. -/
def Completes (s : Store σ τ) (g : String) (v : Value) (m : StoreMove σ τ) : Prop :=
  ∃ c, m = .turn (.caller c) ∧ (s.callers[c]?).bind Caller.phase? = some (.create g) ∧
    (s.turnCaller P.client c).callers[c]? = some (.finished (.ok v))

/-- In a move, somebody beside the callers puts a value in the cache: from outside, or while an
answer is on its way. -/
def PutsBeside (s : Store σ τ) (k : CacheKey) (v : Value) : StoreMove σ τ → Prop
  | .edit e => e = .put k v
  | .turn t => ∃ a, Plays P.client s a t ∧ .put k v ∈ a.edits
  | .spawn _ | .cancel _ | .release _ _ | .elapse _ | .stir _ | .schedule _ => False

/-- In a run, a key pair of a group was created on request, or put by somebody beside the
callers. -/
def Placed (s : Store σ τ) (ms : List (StoreMove σ τ)) (g : String) (v : Value) : Prop :=
  ∃ ms₁ m ms₂, ms = ms₁ ++ m :: ms₂ ∧
    (Completes P (s.after P.client ms₁) g v m ∨
      PutsBeside P (s.after P.client ms₁) (P.keyFor g) v m)

/-- In a run, a caller that gets the key pair of a group took its first turn. -/
def Sought (s : Store σ τ) (ms : List (StoreMove σ τ)) (g : String) : Prop :=
  ∃ ms₁ c ms₂, ms = ms₁ ++ .turn (.caller c) :: ms₂ ∧
    (s.after P.client ms₁).callers[c]? = some (.fresh (.get g))

variable {P} {s : Store σ τ} {g : String} {v : Value}

/-- Who sees to a job of its own creates a key pair on request.

**Proof sketch.** The cases are those of who settles a job. A first turn that sees to one is that of
a creation on request. -/
lemma phase?_of_earns {c : Nat} {a : Answer CacheKey Value τ Value} {job : Order}
    {request : Request} {st : Stage σ τ} (h : Earns P.client s c a job request st) :
    (s.callers[c]?).bind Caller.phase? = some request := by
  cases h with
  | freed hc => rw [hc]; rfl
  | @first p _ _ hc hn _ =>
    cases p with
    | create group =>
      obtain ⟨-, rfl⟩ := Turn.errand.inj (congrArg Prod.fst hn)
      rw [hc]
      rfl
    | get group =>
      simp only [client, begin] at hn
      split at hn <;> exact absurd (congrArg Prod.fst hn) (by simp)
  | later hc hn _ => exact absurd (congrArg Prod.fst hn) (by simp [client])

/-- **Who puts a key pair** in the cache: a caller that has created it on request, or somebody
beside the callers.

**Proof sketch.** The cases are those of how an event arises in a session. Only the turn of a
creation on request puts a pair, and then the key tells the group. -/
theorem completes_of_put {m : StoreMove σ τ} {t : τ}
    (hm : .put (P.keyFor g) v t ∈ events P.conduct s m) :
    Completes P s g v m ∨ PutsBeside P s (P.keyFor g) v m := by
  cases Session.arises_of_mem hm with
  | @edited edit he =>
    cases edit with
    | put k w =>
      obtain ⟨rfl, rfl, -⟩ := Cache.Event.put.inj (List.mem_singleton.1 he)
      exact Or.inr rfl
    | _ => exact absurd he (by simp [Edit.events])
  | played ha he => exact Or.inr ⟨_, ha, Edit.mem_of_put_mem_history he⟩
  | @opened c p _ he =>
    cases p with
    | create group => exact absurd he List.not_mem_nil
    | get group => exact absurd he (Cache.put_not_mem_askHistory _ _ _ _ _ _ _)
  | resumed _ he => exact absurd he List.not_mem_nil
  | @settled c a job request st ha he =>
    cases request with
    | get group => exact absurd he List.not_mem_nil
    | create group =>
      have hfinished := Session.finished_of_earns ha
      cases hr : (P.client.conclude job a.outcome (Session.play a st)).1 with
      | error f =>
        rw [hr] at he
        exact absurd he List.not_mem_nil
      | ok pair =>
        rw [hr] at he hfinished
        obtain ⟨hkey, rfl, -⟩ := Cache.Event.put.inj (List.mem_singleton.1 he)
        obtain rfl := keyFor_inj.1 hkey
        exact Or.inl ⟨c, rfl, phase?_of_earns ha, hfinished⟩
  | landed _ he => exact absurd he (by simp)

/-- **Who starts a load** of a key pair: a caller that gets it, in its first turn.

**Proof sketch.** The cases are those of how an event arises in a session. Only a caller that gets
asks the cache, and the load is for the key that it asks for. -/
theorem seeks_of_started {m : StoreMove σ τ} {l : Nat}
    (hm : .started l (P.keyFor g) ∈ events P.conduct s m) :
    ∃ c, m = .turn (.caller c) ∧ s.callers[c]? = some (.fresh (.get g)) := by
  cases Session.arises_of_mem hm with
  | @edited edit he => cases edit <;> exact absurd he (by simp [Edit.events])
  | played _ he => exact absurd he (Edit.started_not_mem_history _ _ _ _)
  | @opened c p hc he =>
    cases p with
    | create group => exact absurd he List.not_mem_nil
    | get group =>
      obtain rfl := keyFor_inj.1 (Cache.started_mem_askHistory.1 he).1
      exact ⟨c, rfl, hc⟩
  | resumed _ he => exact absurd he List.not_mem_nil
  | @settled c a job request st _ he =>
    cases request with
    | get group => exact absurd he List.not_mem_nil
    | create group =>
      cases hr : (P.client.conclude job a.outcome (Session.play a st)).1 with
      | error f =>
        rw [hr] at he
        exact absurd he List.not_mem_nil
      | ok pair =>
        rw [hr] at he
        exact absurd (List.mem_singleton.1 he) (by simp)
  | landed _ he => exact absurd he (by simp)

/-- A key pair comes into the cache only in a move that creates it, or that puts it there beside the
callers. The move with the event is found by `exists_move_of_mem`, and `completes_of_put` says what
it can be. -/
lemma placed_of_put {ms : List (StoreMove σ τ)} {t : τ}
    (h : .put (P.keyFor g) v t ∈ history P.conduct s ms) : Placed P s ms g v := by
  obtain ⟨ms₁, m, ms₂, rfl, hm⟩ := Session.exists_move_of_mem h
  exact ⟨ms₁, m, ms₂, rfl, completes_of_put hm⟩

/-- A load for the key of a group is started only by a caller on its first turn, as
`seeks_of_started` says of one move. -/
lemma sought_of_started {ms : List (StoreMove σ τ)} {l : Nat}
    (h : .started l (P.keyFor g) ∈ history P.conduct s ms) : Sought P s ms g := by
  obtain ⟨ms₁, m, ms₂, rfl, hm⟩ := Session.exists_move_of_mem h
  obtain ⟨c, rfl, hc⟩ := seeks_of_started hm
  exact ⟨ms₁, c, ms₂, rfl, hc⟩

end Bringing

/-! ## Groups that are forgotten -/

/-- A caller that finds no key pair of its group has one created, under a name of its own. -/
lemma commissions_of_lacks {P : KeyPairs σ τ} {s : Store σ τ} {g : String} {c : Nat}
    (hv : (s.ledger P.conduct.key).Valid) (hk : s.stage.cache.Lacks (P.keyFor g))
    (hc : s.callers[c]? = some (.fresh (.get g))) :
    Commissions P s c ⟨g, P.naming.nameFor g (P.suffix s.stage.rest).1⟩ (.get g) := by
  have hlaunches : Launches P.client s c ⟨g, P.naming.nameFor g (P.suffix s.stage.rest).1⟩
      (.get g) := by
    refine Session.launches_of_wait hc (Prod.ext ?_ rfl)
    show (P.begin (.get g) s.stage).1 = _
    simp only [begin, Stage.request, hk.request, if_true, order, Session.nextLoad_eq hv]
  exact ⟨hlaunches, fun ms hms => ⟨_, creates_of_asks (hlaunches.asks ms hms)⟩⟩

/-- What becomes of a group of which the cache has nothing. -/
structure Forgotten (P : KeyPairs σ τ) (s : Store σ τ) (g : String) : Prop where
  lacks : s.stage.cache.Lacks (P.keyFor g)
  /-- The cache gets nothing of it, whatever loads land, until a key pair is placed or sought. -/
  lasts : ∀ ms, (∃ v, Placed P s ms g v) ∨ Sought P s ms g ∨
    (s.after P.client ms).stage.cache.Lacks (P.keyFor g)
  /-- At any time, what the cache has of it was placed, or is what a later load came to. -/
  kept : ∀ ms e, (s.after P.client ms).stage.cache.kept? (P.keyFor g) = some e →
    Placed P s ms g e.value ∨
      Yields P.conduct.key (P.keyFor g) s.flights.length (s.after P.client ms).flights e.value
  /-- Who is the next to get its key pair has one created, unless one is placed before. -/
  next : ∀ ms c, (s.after P.client ms).callers[c]? = some (.fresh (.get g)) →
    (∃ v, Placed P s ms g v) ∨ Sought P s ms g ∨
      Commissions P (s.after P.client ms) c
        ⟨g, P.naming.nameFor g (P.suffix (s.after P.client ms).stage.rest).1⟩ (.get g)

/-- A group of which the cache has nothing is forgotten.

**Proof sketch.** As long as nobody puts a pair and nobody starts a load, the cache goes on to have
nothing, by `lacks_after`. An entry that is there later was put later, since no earlier load feeds
the key; and one who gets the pair then commissions a creation. -/
lemma Forgotten.of_lacks {P : KeyPairs σ τ} {s : Store σ τ} {g : String}
    (hv : (s.ledger P.conduct.key).Valid) (hk : s.stage.cache.Lacks (P.keyFor g)) :
    Forgotten P s g := by
  have hlasts (ms : List (StoreMove σ τ)) : (∃ v, Placed P s ms g v) ∨ Sought P s ms g ∨
      (s.after P.client ms).stage.cache.Lacks (P.keyFor g) := by
    by_cases hplaced : ∃ v, Placed P s ms g v
    · exact Or.inl hplaced
    · by_cases hsought : Sought P s ms g
      · exact Or.inr (Or.inl hsought)
      · refine Or.inr (Or.inr ?_)
        refine Session.lacks_after P.conduct hv hk (fun v t hm => ?_) fun l hm => ?_
        · exact hplaced ⟨v, placed_of_put hm⟩
        · exact hsought (sought_of_started hm)
  refine ⟨hk, hlasts, fun ms e he => ?_, fun ms c hc => ?_⟩
  · have hfed : Fed P.conduct s ([] ++ ms) (P.keyFor g) s.flights.length :=
      (Fed.of_vacant hk.1 hk.2 (Nat.le_refl _)).append hv ms
    rw [List.nil_append] at hfed
    exact (hfed.kept he).imp_left fun ⟨t, hm⟩ => placed_of_put hm
  · refine (hlasts ms).imp_right (Or.imp_right fun hk' => ?_)
    exact commissions_of_lacks (Session.valid_after P.conduct hv ms) hk' hc

/-- **Once its key pair was dropped**, a group is forgotten, whatever was on its way. -/
theorem forgotten_of_invalidate (P : KeyPairs σ τ) (g : String) (now : τ) (ttl : Option τ)
    (name : String) (rest : σ) (ms : List (StoreMove σ τ)) :
    Forgotten P (((opened now ttl name rest).after P.client ms).move P.client
      (.edit (.invalidate (P.keyFor g)))) g := by
  have hnew : ((opened now ttl name rest : Store σ τ).ledger P.conduct.key).Valid :=
    Cache.Ledger.Valid.new now ttl name
  have hv := Session.valid_after P.conduct hnew ms
  refine .of_lacks (Session.valid_move P.conduct hv _) ?_
  show (Stage.cache (Stage.invalidate _ (P.keyFor g))).Lacks (P.keyFor g)
  rw [Stage.cache_invalidate]
  exact Cache.lacks_invalidate _ _

end KeyPairs

end NodeKeeper
