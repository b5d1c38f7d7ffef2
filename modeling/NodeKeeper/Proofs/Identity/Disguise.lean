import NodeKeeper.Proofs.Cache.Renaming
import NodeKeeper.Proofs.Identity.Turns
import NodeKeeper.Proofs.Session.Mirror

/-!
# What the log says of secrets and tokens

Nothing. Let two sessions of a supplier be the same, but that in the second one all secrets and all
tokens are exchanged for others. The same is reported in both, the same callers finish, fail and
wait, and whoever gets a token in the one gets the token in the other that was put in its place.

## Main definitions

* `Supplier.Disguise` — secrets are exchanged one for one, and token identifiers for others.
* `Supplier.Disguise.mirror` — a session, found again in another one with other secrets and tokens.
* `Supplier.Disguise.tie` — two stages are the same but for secrets and tokens.
* `Supplier.Disguise.Alike` — two suppliers whose authenticators do the same but for that.
* `Supplier.Disguise.Moves` — two moves are the same but for that.

## Main results

* `Supplier.Disguise.kept` — one turn.
* `Supplier.secrets_do_not_show` — a whole session.

## Implementation notes

An authenticator may report events of its own, and these are its own affair. Both logs are therefore
compared with regard to those events that count, whichever these are; the authenticators have to
agree about them.
-/

namespace NodeKeeper.Supplier

/-- Secrets are exchanged one for one, and token identifiers for others. What is empty stays so, and
nothing becomes empty. -/
structure Disguise where
  secret : String → String
  tokenId : String → String
  secret_injective : Function.Injective secret
  secret_empty : secret "" = ""
  tokenId_eq_empty_iff : ∀ s, tokenId s = "" ↔ s = ""

namespace Disguise

variable {σ σ' τ : Type} (D : Disguise)

/-! ## What is exchanged -/

/-- Credentials with another secret. -/
def credentials (c : Credentials) : Credentials := { c with secret := D.secret c.secret }

/-- An identifier that is no text stays as it is. -/
def id : Value → Value
  | .text s => .text (D.tokenId s)
  | v => v

/-- A token with another identifier. -/
def token (t : Token τ) : Token τ := { t with id := D.id t.id }

/-- A token that was issued, with another identifier. -/
def issued (t : Issued τ) : Issued τ := { t with token := D.token t.token }

/-- What was granted, with another identifier. -/
def grant : Grant τ → Grant τ
  | .token t => .token (D.token t)
  | .session s => .session (D.tokenId s)

/-- The phase of a request, with another secret in its credentials. -/
def phase : Phase → Phase
  | .opening => .opening
  | .first c => .first (D.credentials c)
  | .second => .second

/-- What is granted in disguise becomes the token in disguise, whether it is a token or a bare
identifier. -/
lemma toToken_grant (g : Grant τ) : (D.grant g).toToken = D.token g.toToken := by
  cases g <;> rfl

/-- Empty tokens stay empty, and others do not become empty. -/
lemma isTruthy_id (v : Value) : (D.id v).isTruthy = v.isTruthy := by
  cases v with
  | text s =>
    simp only [id, Value.isTruthy]
    rw [Bool.eq_iff_iff, bne_iff_ne, bne_iff_ne, ne_eq, ne_eq, D.tokenId_eq_empty_iff]
  | _ => rfl

/-- Different credentials stay different in disguise, so that they are different keys of the
cache. -/
lemma credentials_injective : Function.Injective D.credentials := by
  rintro ⟨identity, secret, kind⟩ ⟨identity', secret', kind'⟩ h
  simp only [credentials, Credentials.mk.injEq] at h ⊢
  exact ⟨h.1, D.secret_injective h.2.1, h.2.2⟩

/-- A secret shows only whether it is empty. -/
lemma shown_credentials (c : Credentials) : (D.credentials c).shown = c.shown := by
  have hmasked : Credentials.maskedSecret (D.secret c.secret) =
      Credentials.maskedSecret c.secret := by
    have hiff : D.secret c.secret = "" ↔ c.secret = "" :=
      ⟨fun h => D.secret_injective (h.trans D.secret_empty.symm), fun h => by rw [h, D.secret_empty]⟩
    simp only [Credentials.maskedSecret, hiff]
  rw [Credentials.shown, Credentials.shown]
  simp only [credentials, hmasked]

/-- Credentials are keys that look alike, and tokens are values. -/
def exchange : Renaming Credentials (Issued τ) where
  key := D.credentials
  value := D.issued
  key_injective := D.credentials_injective
  shown_key := D.shown_credentials
  written_key c := by
    change s!"Credentials({(D.credentials c).shown})" = s!"Credentials({c.shown})"
    rw [D.shown_credentials]

/-- All is found again with other secrets and tokens. -/
def mirror : Mirror Credentials (Issued τ) τ (Grant τ) Phase Credentials where
  answer a := ⟨a.took, a.edits.map D.exchange.edit, a.outcome.map D.grant⟩
  value := D.issued
  phase := D.phase
  job := D.credentials

/-! ## Stages -/

/-- Two worlds are the same but for secrets and tokens, and the states of the two authenticators are
in a relation. -/
structure Worlds (Service : σ → σ' → Prop) (w : World σ τ) (w' : World σ' τ) : Prop where
  active : w'.active = D.credentials w.active
  wall : w'.wall = w.wall
  nextSerial : w'.nextSerial = w.nextSerial
  service : Service w.service w'.service

/-- Two stages are the same but for secrets and tokens, and report the same of what counts. -/
abbrev Tied (counts : Log.Event → Bool) (Service : σ → σ' → Prop) :
    Stage σ τ → Stage σ' τ → Prop :=
  NodeKeeper.Stage.Renamed D.exchange counts (D.Worlds Service)

variable {D} {counts : Log.Event → Bool} {Service : σ → σ' → Prop}
variable [Add τ] [Sub τ] [LE τ] [DecidableLE τ]

section Stages

omit [Sub τ]

variable {st : Stage σ τ} {st' : Stage σ' τ}

/-- An answer is played in both.

**Proof sketch.** The clock goes on by the same time, and then the edits are made one after the
other. -/
lemma play (H : D.Tied counts Service st st')
    (a : Answer Credentials (Issued τ) τ (Grant τ)) :
    D.Tied counts Service (Session.play a st) (Session.play (D.mirror.answer a) st') := by
  have hedits (es : List (Edit Credentials (Issued τ))) {st : Stage σ τ} {st' : Stage σ' τ}
      (H : D.Tied counts Service st st') :
      D.Tied counts Service (es.foldl NodeKeeper.Stage.apply st)
        ((es.map D.exchange.edit).foldl NodeKeeper.Stage.apply st') := by
    induction es generalizing st st' with
    | nil => exact H
    | cons e es ih => exact ih (H.apply e)
  refine hedits a.edits ?_
  simp only [mirror]
  cases a.took with
  | none => exact H
  | some d => exact ⟨congrArg (· + d) H.now, H.cache, H.log, H.rest⟩

omit [Add τ] [LE τ] [DecidableLE τ] in
/-- A load ends in both. -/
lemma endLoad (H : D.Tied counts Service st st') (l : Nat) (r : Outcome (Issued τ)) :
    D.Tied counts Service (st.endLoad l r) (st'.endLoad l (D.mirror.outcome r)) := by
  have hfind : (st'.cache.loads.find? fun m => m.id == l) =
      (st.cache.loads.find? fun m => m.id == l).map (D.exchange (τ := τ)).load := by
    rw [H.cache.loads, List.find?_map]
    rfl
  rw [NodeKeeper.Stage.endLoad, NodeKeeper.Stage.endLoad, hfind]
  cases st.cache.loads.find? fun m => m.id == l with
  | none => exact H
  | some load => exact H.finish load r

variable (D counts Service) in
/-- Two stages are tied if they are the same but for secrets and tokens. -/
def tie : (D.mirror (τ := τ)).Tie (World σ τ) (World σ' τ) where
  Tied := D.Tied counts Service
  Timely _ _ := True
  now_eq H := H.now
  play a _ _ H _ := play H a
  endLoad l r _ _ H := endLoad H l r

end Stages

/-! ## Turns -/

variable (D counts Service) in
/-- Two suppliers whose authenticators do the same but for secrets and tokens: from states that are
in a relation they give the same answers, and come to such states again. -/
structure Alike (S : Supplier σ τ) (S' : Supplier σ' τ) : Prop where
  margin : S'.margin = S.margin
  logged : S'.logged = S.logged
  response : ∀ c {u u'}, Service u u' →
    (S'.authenticate (D.credentials c) u').1 = D.mirror.response (S.authenticate c u).1
  reported : ∀ c {u u'}, Service u u' →
    (S'.authenticate (D.credentials c) u').2.1.filter counts =
      (S.authenticate c u).2.1.filter counts
  service : ∀ c {u u'}, Service u u' →
    Service (S.authenticate c u).2.2 (S'.authenticate (D.credentials c) u').2.2

section Turns

variable {S : Supplier σ τ} {S' : Supplier σ' τ} {st : Stage σ τ} {st' : Stage σ' τ}

omit [Sub τ] in
/-- The token of the same caller is dropped in both.

**Proof sketch.** The caches show tokens with the same number, or nothing. So both drop the token,
and note the same, or neither does. -/
lemma dropExpired (H : D.Tied counts Service st st') (c : Credentials) (t : Issued τ) :
    D.Tied counts Service (Supplier.dropExpired c t st)
      (Supplier.dropExpired (D.credentials c) (D.issued t) st') := by
  obtain ⟨hvalue, hstage⟩ := H.lookup c
  unfold Supplier.dropExpired
  rw [show D.exchange.key c = D.credentials c from rfl] at hvalue hstage
  revert hvalue hstage
  rcases st.lookup c with ⟨held, st₁⟩
  rcases st'.lookup (D.credentials c) with ⟨held', st₁'⟩
  rintro rfl hstage
  cases held with
  | none => exact hstage
  | some held =>
    dsimp only [Option.map_some]
    rw [show (D.exchange.value held).serial = held.serial from rfl,
      show (D.issued t).serial = t.serial from rfl]
    split
    · exact (hstage.record _).invalidate c
    · exact hstage

omit [Sub τ] in
/-- Asking for a token again comes to the same.

**Proof sketch.** The request comes to the same in both caches, up to the identifier of a token that
is shown. -/
lemma askAgain (H : D.Tied counts Service st st') (c : Credentials) :
    (Supplier.askAgain (D.credentials c) st').1 =
        (D.mirror (τ := τ)).turn (Supplier.askAgain c st).1 ∧
      D.Tied counts Service (Supplier.askAgain c st).2
        (Supplier.askAgain (D.credentials c) st').2 := by
  obtain ⟨haccess, hstage⟩ := H.request c true
  unfold Supplier.askAgain
  rw [show D.exchange.key c = D.credentials c from rfl] at haccess hstage
  revert haccess hstage
  rcases st.request c true with ⟨access, st₁⟩
  rcases st'.request (D.credentials c) true with ⟨access', st₁'⟩
  rintro rfl hstage
  cases access with
  | hit t => exact ⟨rfl, hstage⟩
  | joined l => exact ⟨rfl, hstage⟩
  | started l => exact ⟨rfl, hstage⟩
  | noLoader =>
    exact ⟨congrArg (fun f => Turn.done (.error f)) (hstage.cache.noLoaderFault c), hstage⟩

variable (hS : D.Alike counts Service S S')

include hS

/-- Looking at a token comes to the same.

**Proof sketch.** Expiry is read off the token and the clock, and a disguise leaves both as they
are. So both ask again, or neither. -/
lemma inspect (H : D.Tied counts Service st st') (c : Credentials) (t : Issued τ) :
    (S'.inspect (D.credentials c) (D.issued t) st').1 = D.mirror.turn (S.inspect c t st).1 ∧
      D.Tied counts Service (S.inspect c t st).2
        (S'.inspect (D.credentials c) (D.issued t) st').2 := by
  have hexpired : (D.issued t).token.expired st'.rest.wall S'.margin =
      t.token.expired st.rest.wall S.margin := by
    rw [H.rest.wall, hS.margin]
    rfl
  rw [Supplier.inspect, Supplier.inspect, hexpired]
  split
  · exact askAgain (dropExpired H c t) c
  · exact ⟨rfl, H⟩

/-- Asking for the token of the active credentials comes to the same.

**Proof sketch.** The request comes to the same in both caches. A token that is shown is looked at
in both, as in `inspect`. -/
lemma begin_eq (H : D.Tied counts Service st st') :
    (S'.begin st').1 = D.mirror.turn (S.begin st).1 ∧
      D.Tied counts Service (S.begin st).2 (S'.begin st').2 := by
  obtain ⟨haccess, hstage⟩ := H.request st.rest.active true
  rw [Supplier.begin, Supplier.begin, H.rest.active]
  rw [show D.exchange.key st.rest.active = D.credentials st.rest.active from rfl] at haccess hstage
  revert haccess hstage
  rcases st.request st.rest.active true with ⟨access, st₁⟩
  rcases st'.request (D.credentials st.rest.active) true with ⟨access', st₁'⟩
  rintro rfl hstage
  cases access with
  | hit t => exact inspect hS hstage st.rest.active t
  | joined l => exact ⟨rfl, hstage⟩
  | started l => exact ⟨rfl, hstage⟩
  | noLoader =>
    exact ⟨congrArg (fun f => Turn.done (.error f)) (hstage.cache.noLoaderFault _), hstage⟩

/-- So does going on after a load. -/
lemma resume (H : D.Tied counts Service st st') (phase : Phase) (r : Outcome (Issued τ)) :
    (S'.resume (D.phase phase) (D.mirror.outcome r) st').1 =
        D.mirror.turn (S.resume phase r st).1 ∧
      D.Tied counts Service (S.resume phase r st).2
        (S'.resume (D.phase phase) (D.mirror.outcome r) st').2 := by
  cases phase with
  | first c =>
    cases r with
    | ok t => exact inspect hS H c t
    | error f => exact ⟨rfl, H⟩
  | opening | second => cases r <;> exact ⟨rfl, H⟩

omit [Add τ] [Sub τ] [LE τ] [DecidableLE τ] in
/-- The authenticator is asked in both. -/
lemma call (H : D.Tied counts Service st st') (c : Credentials) :
    (S'.call (D.credentials c) st').1 = D.mirror.response (S.call c st).1 ∧
      D.Tied counts Service (S.call c st).2 (S'.call (D.credentials c) st').2 := by
  have hrecord := H.record ⟨.debug, "token.authenticating", [("identity", .text c.identity)]⟩
  refine ⟨hS.response c H.rest.service, ?_⟩
  simp only [Supplier.call, foldl_record]
  refine ⟨hrecord.now, hrecord.cache, ?_, ?_⟩
  · rw [List.filter_append, List.filter_append]
    exact congrArg₂ (· ++ ·) hrecord.log (hS.reported c H.rest.service)
  · exact ⟨H.rest.active, H.rest.wall, H.rest.nextSerial, hS.service c H.rest.service⟩

omit [Add τ] [Sub τ] [LE τ] [DecidableLE τ] in
/-- What was granted becomes a token in both, or in none.

**Proof sketch.** Both suppliers were granted something, or neither was; it has an identifier in
both or in neither. The number that is given out, and what is noted of the token, are the same. -/
lemma conclude (H : D.Tied counts Service st st') (c : Credentials)
    (a : Answer Credentials (Issued τ) τ (Grant τ)) :
    (S'.conclude (D.credentials c) (D.mirror.answer a).outcome st').1 =
        D.mirror.outcome (S.conclude c a.outcome st).1 ∧
      D.Tied counts Service (S.conclude c a.outcome st).2
        (S'.conclude (D.credentials c) (D.mirror.answer a).outcome st').2 := by
  rw [show (D.mirror.answer a).outcome = a.outcome.map D.grant from rfl]
  cases a.outcome with
  | error f => exact ⟨rfl, H⟩
  | ok g =>
    simp only [Except.map, Supplier.conclude, D.toToken_grant]
    rw [show (D.token g.toToken).id = D.id g.toToken.id from rfl, D.isTruthy_id]
    split
    · exact ⟨rfl, H⟩
    · have hstamped : D.Tied counts Service (stamp g.toToken st).2
          (stamp (D.token g.toToken) st').2 :=
        ⟨H.now, H.cache, H.log, H.rest.active, H.rest.wall, congrArg (· + 1) H.rest.nextSerial,
          H.rest.service⟩
      have hissued : (stamp (D.token g.toToken) st').1 = D.issued (stamp g.toToken st).1 := by
        simp only [stamp, issued, H.rest.nextSerial]
      rw [hS.logged]
      exact ⟨congrArg Except.ok hissued, hstamped.record _⟩

/-- **One turn** of two suppliers that do the same but for secrets and tokens. -/
theorem kept : (D.tie counts Service).Kept S.client S'.client where
  start _ _ _ H := begin_eq hS H
  resume phase r _ _ H := resume hS H phase r
  call job _ _ H := call hS H job
  conclude job a _ _ H := conclude hS H job a
  settle _ _ _ _ H := ⟨rfl, H⟩

end Turns

/-! ## Sessions -/

variable (D Service) in
/-- Two moves are the same but for secrets and tokens. -/
inductive Moves : DeskMove σ τ → DeskMove σ' τ → Prop
  | spawn (phase : Phase) : Moves (.spawn phase) (.spawn (D.phase phase))
  | cancel (c : Nat) : Moves (.cancel c) (.cancel c)
  | release (gate : String) (a : Answer Credentials (Issued τ) τ (Grant τ)) :
      Moves (.release gate a) (.release gate (D.mirror.answer a))
  | edit (e : Edit Credentials (Issued τ)) : Moves (.edit e) (.edit (D.exchange.edit e))
  | elapse (later : τ) : Moves (.elapse later) (.elapse later)
  /-- Credentials are switched, the wall clock goes on, tokens are numbered, and so forth. -/
  | stir {f : World σ τ → World σ τ} {f' : World σ' τ → World σ' τ}
      (hf : ∀ w w', D.Worlds Service w w' → D.Worlds Service (f w) (f' w')) :
      Moves (.stir f) (.stir f')
  | schedule (queue : List Task) : Moves (.schedule queue) (.schedule queue)
  | turn (t : Task) : Moves (.turn t) (.turn t)

variable {S : Supplier σ τ} {S' : Supplier σ' τ} {s : Desk σ τ} {s' : Desk σ' τ}

/-- **One move** of both sessions.

**Proof sketch.** The cases are those of the move. A turn is mirrored because the two clients are
alike. -/
theorem mirrored_move (hS : D.Alike counts Service S S')
    (H : s.Mirrored (D.tie counts Service) s') {m : DeskMove σ τ} {m' : DeskMove σ' τ}
    (hm : D.Moves Service m m') :
    (s.move S.client m).Mirrored (D.tie counts Service) (s'.move S'.client m') := by
  cases hm with
  | spawn phase => exact H.spawn phase
  | cancel c => exact H.cancel c
  | release gate a => exact H.release gate a
  | edit e => exact H.setStage (H.stage.apply e)
  | elapse later => exact H.setStage ⟨rfl, H.stage.cache, H.stage.log, H.stage.rest⟩
  | stir hf => exact H.setStage ⟨H.stage.now, H.stage.cache, H.stage.log, hf _ _ H.stage.rest⟩
  | schedule queue => exact { H with queue := rfl }
  | turn t => exact H.turn (kept hS) (conduct S) (conduct S') t (.inl trivial)

/-- **A run** of both sessions. -/
theorem mirrored_after (hS : D.Alike counts Service S S')
    (H : s.Mirrored (D.tie counts Service) s') {ms : List (DeskMove σ τ)}
    {ms' : List (DeskMove σ' τ)} (hms : List.Forall₂ (D.Moves Service) ms ms') :
    (s.after S.client ms).Mirrored (D.tie counts Service) (s'.after S'.client ms') := by
  induction hms generalizing s s' with
  | nil => exact H
  | cons hm _ ih => exact ih (mirrored_move hS H hm)

end Disguise

open Session (opened)

/-- **Secrets and tokens do not show.** Two sessions of a supplier, from their opening on, that are
the same but for secrets and token identifiers: after each move the same has been reported of what
counts, the same callers have failed with the same faults, the same ones wait, and those that got a
token in one session got the token in the other that was put in its place.

**Proof sketch.** What is asked of a secret is only whether it is the same as another, and whether
it is empty; of a token, whether it is empty. All else is carried from one session to the other turn
by turn. -/
theorem secrets_do_not_show {σ σ' τ : Type} [Add τ] [Sub τ] [LE τ] [DecidableLE τ] (D : Disguise)
    {counts : Log.Event → Bool} {Service : σ → σ' → Prop} {S : Supplier σ τ} {S' : Supplier σ' τ}
    (hS : D.Alike counts Service S S') {w : World σ τ} {w' : World σ' τ}
    (hw : D.Worlds Service w w') (now : τ) (ttl : Option τ) (name : String)
    {ms : List (DeskMove σ τ)} {ms' : List (DeskMove σ' τ)}
    (hms : List.Forall₂ (D.Moves Service) ms ms') (n : Nat) :
    let s := (opened now ttl name w).after S.client (ms.take n)
    let s' := (opened now ttl name w').after S'.client (ms'.take n)
    s'.stage.log.filter counts = s.stage.log.filter counts ∧
      s'.callers = s.callers.map D.mirror.caller ∧ s'.flights = s.flights.map D.mirror.flight ∧
      s'.queue = s.queue ∧ s'.calls = s.calls.map D.credentials ∧
      (∀ (c : Nat) f, s'.callers[c]? = some (.finished (.error f)) ↔
        s.callers[c]? = some (.finished (.error f))) ∧
      (∀ (c : Nat) t', s'.callers[c]? = some (.finished (.ok t')) ↔
        ∃ t, s.callers[c]? = some (.finished (.ok t)) ∧ t' = D.issued t) ∧
      ∀ c, (s'.stage.lookup (D.credentials c)).1 = (s.stage.lookup c).1.map D.issued := by
  intro s s'
  have hopened : (opened now ttl name w : Desk σ τ).Mirrored (D.tie counts Service)
      (opened now ttl name w') :=
    ⟨⟨rfl, Cache.Renamed.new ttl name, rfl, hw⟩, rfl, rfl, rfl, rfl, rfl⟩
  have H := Disguise.mirrored_after hS hopened (List.forall₂_take n hms)
  refine ⟨H.stage.log, H.callers, H.flights, H.queue, H.calls, fun c f => ?_, fun c t' => ?_,
    fun c => (H.stage.lookup c).1⟩
  · rw [H.getElem?_callers, Option.map_eq_some_iff]
    simp only [Mirror.caller_eq_failed_iff, exists_eq_right]
    exact Iff.rfl
  · rw [H.getElem?_callers, Option.map_eq_some_iff]
    simp only [Mirror.caller_eq_served_iff]
    constructor
    · rintro ⟨_, hx, t, rfl, rfl⟩
      exact ⟨t, hx, rfl⟩
    · rintro ⟨t, hx, rfl⟩
      exact ⟨_, hx, t, rfl, rfl⟩

/-- Secrets and tokens are read backwards. -/
def Disguise.backwards : Disguise where
  secret s := String.ofList s.toList.reverse
  tokenId s := String.ofList s.toList.reverse
  secret_injective s t h :=
    String.toList_injective (List.reverse_injective (String.ofList_injective h))
  secret_empty := rfl
  tokenId_eq_empty_iff s := by simp

/-- A supplier whose tokens are those of the slow one, read backwards. -/
def slowBackwards : Supplier Nat Float where
  authenticate c calls :=
    (Disguise.backwards.mirror.response (slow.authenticate c calls).1,
      (slow.authenticate c calls).2)
  margin := 30
  logged := .float

/-- A caller waits for a token, the credentials change, and another caller comes in. The second
answer comes first and is a refusal. -/
def switched : List (DeskMove Nat Float) :=
  [.spawn .opening, .turn (.caller 0), .turn (.load 0),
    .stir fun w => { w with active := ⟨"bob", "hunter2", .accessKey⟩ }, .spawn .opening,
    .turn (.caller 1), .turn (.load 1), .release "g2" ⟨none, [], .error (.badValue "no such user")⟩,
    .turn (.load 1), .release "g1" ⟨none, [], .ok (.session "first")⟩, .turn (.load 0),
    .turn (.deliver 0 0), .turn (.caller 0)]

/-- The same, read backwards. -/
def switchedBackwards : List (DeskMove Nat Float) :=
  [.spawn .opening, .turn (.caller 0), .turn (.load 0),
    .stir fun w => { w with active := ⟨"bob", "2retnuh", .accessKey⟩ }, .spawn .opening,
    .turn (.caller 1), .turn (.load 1), .release "g2" ⟨none, [], .error (.badValue "no such user")⟩,
    .turn (.load 1), .release "g1" ⟨none, [], .ok (.session "tsrif")⟩, .turn (.load 0),
    .turn (.deliver 0 0), .turn (.caller 0)]

/-- The first caller gets its token, and the log is the same.

**Proof sketch.** The theorem is applied to two suppliers that spell secrets forwards and backwards.
That their moves correspond is checked one by one, and the rest is computed. -/
theorem secrets_do_not_show_backwards :
    let s := (opened 0 (some 3600) "tokens" ⟨alice, 0, 0, 0⟩).after slow.client switched
    let s' := (opened 0 (some 3600) "tokens" ⟨⟨"alice", "terc3s", .password⟩, 0, 0, 0⟩).after
      slowBackwards.client switchedBackwards
    s.stage.log.length = 5 ∧ s'.stage.log = s.stage.log ∧
      s.callers[0]? = some (.finished (.ok ⟨⟨.text "first", none⟩, 0⟩)) ∧
      s'.callers[0]? = some (.finished (.ok ⟨⟨.text "tsrif", none⟩, 0⟩)) := by
  have hS : Disguise.backwards.Alike (fun _ => true) (· = ·) slow slowBackwards :=
    { margin := rfl
      logged := rfl
      response := by rintro c u _ rfl; rfl
      reported := by rintro c u _ rfl; rfl
      service := by rintro c u _ rfl; rfl }
  have hbob : (⟨"bob", "2retnuh", .accessKey⟩ : Credentials) =
      Disguise.backwards.credentials ⟨"bob", "hunter2", .accessKey⟩ := by decide
  have hms : List.Forall₂ (Disguise.backwards.Moves (· = ·)) switched switchedBackwards := by
    refine .cons (.spawn _) (.cons (.turn _) (.cons (.turn _) (.cons (.stir ?_) (.cons (.spawn _)
      (.cons (.turn _) (.cons (.turn _) (.cons (.release _ _) (.cons (.turn _) (.cons (.release _ _)
      (.cons (.turn _) (.cons (.turn _) (.cons (.turn _) .nil))))))))))))
    exact fun u u' hu => ⟨hbob, hu.wall, hu.nextSerial, hu.service⟩
  have hw : Disguise.backwards.Worlds (· = ·) (⟨alice, 0, 0, 0⟩ : World Nat Float)
      ⟨⟨"alice", "terc3s", .password⟩, 0, 0, 0⟩ := ⟨by decide, rfl, rfl, rfl⟩
  obtain ⟨hlog, -, -, -, -, -, hserved, -⟩ :=
    secrets_do_not_show Disguise.backwards hS hw 0 (some 3600) "tokens" hms switched.length
  rw [List.take_length, hms.length_eq, List.take_length] at hlog hserved
  rw [List.filter_true, List.filter_true] at hlog
  have hfirst : ((opened 0 (some 3600) "tokens" ⟨alice, 0, 0, 0⟩).after slow.client
      switched).callers[0]? = some (.finished (.ok ⟨⟨.text "first", none⟩, 0⟩)) := rfl
  exact ⟨rfl, hlog, hfirst, (hserved 0 _).2 ⟨_, hfirst, rfl⟩⟩

end NodeKeeper.Supplier
