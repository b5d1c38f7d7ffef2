import NodeKeeper.Identity.Service
import NodeKeeper.Proofs.Config.Timing
import NodeKeeper.Proofs.Decimal.Order
import NodeKeeper.Proofs.Flow.Meets

/-!
# Lost requests for a token

A request for a token that the transport lost is sent again after a wait, as often as the settings
allow. Any other answer ends the tries at once: what the exchange comes to is what its last answer
comes to, and the answers before it leave nothing but time behind.

## Main definitions

* `Config.RetrySettings.Valid` — settings that keep their bounds.
* `Web.answer` — what sending a request comes to.
* `Backoff.retried` — the world after so many lost requests and waits.
* `IdentityService.Holds` — an answer holds a token.

## Main results

* `Backoff.wait_mem` — a wait takes some time or none, and not more than is allowed.
* `Backoff.exists_post_eq` — a request that is tried again comes to what its last try comes to.
* `IdentityService.authenticate_outcome` — the requests and waits of an exchange, and how it ends.
-/

namespace NodeKeeper

variable {σ : Type}

/-! ## Settings -/

namespace Config

/-- Settings that keep their bounds. -/
structure RetrySettings.Valid (s : RetrySettings) : Prop where
  attempts : 1 ≤ s.attempts
  initialWait : 0 < s.initialWait
  maxWait : 0 < s.maxWait
  multiplier : 1 ≤ s.multiplier

section Numbers

variable {name : String} {fallback x : Float} {get : σ → Float} {v? : Option Value}

/-- A setting that has to be positive is positive if its default is. -/
lemma pos_of_own
    (h : (Field.plain name (some fallback) (Setting.numberAbove 0) get).own v? = .ok x)
    (hf : 0 < fallback) : 0 < x := by
  have hzero : Decimal.ofInt 0 = 0 := rfl
  rcases Field.eq_or_exists_of_plain h with rfl | ⟨v, hread⟩
  · exact hf
  · obtain ⟨y, -, hread⟩ := exists_of_bind_eq_ok hread
    rw [hzero] at hread
    split at hread
    · next hlt => exact Except.ok.inj hread ▸ hlt
    · exact absurd hread (by simp)

/-- A setting that has to be at least one is at least one if its default is. -/
lemma one_le_of_own
    (h : (Field.plain name (some fallback) (Setting.numberAtLeast 1) get).own v? = .ok x)
    (hf : 1 ≤ fallback) : 1 ≤ x := by
  have hone : Decimal.ofInt 1 = 1 := rfl
  rcases Field.eq_or_exists_of_plain h with rfl | ⟨v, hread⟩
  · exact hf
  · obtain ⟨y, -, hread⟩ := exists_of_bind_eq_ok hread
    rw [hone] at hread
    split at hread
    · next hle => exact Except.ok.inj hread ▸ hle
    · exact absurd hread (by simp)

end Numbers

/-- **Settings that were read** keep their bounds. -/
theorem RetrySettings.valid_of_read {v : Value} {s : RetrySettings} (h : read v = .ok s) :
    s.Valid := by
  obtain ⟨fs, -, hfields⟩ := fieldwise v s h
  obtain ⟨hattempts, hinitial, hmax, hmultiplier, -⟩ : _ ∧ _ ∧ _ ∧ _ ∧ _ := by
    simpa only [declared, List.forall_mem_cons] using hfields
  refine ⟨?_, pos_of_own hinitial (by decide), pos_of_own hmax (by decide),
    one_le_of_own hmultiplier (by decide)⟩
  rcases Field.eq_or_exists_of_plain (a := s.attempts) hattempts with heq | ⟨_, hread⟩
  · exact heq ▸ (by decide : (1 : Int) ≤ 5)
  · exact le_of_integerAtLeast hread

end Config

/-! ## Sending -/

namespace Web

variable {ch : Channel σ} {req : Request} {w : Wire σ}

/-- What sending a request comes to. -/
def answer (ch : Channel σ) (req : Request) (w : Wire σ) : Except Fault Response :=
  if isPlain req.address.host then (ch.send req w.line).1.bind (accept req)
  else .error unencodable

/-- The world after a request was sent. -/
def sent (ch : Channel σ) (req : Request) (w : Wire σ) : Wire σ := (send ch req w).2

/-- Sending a request returns what came of it, and leaves the line as the channel left it. -/
lemma send_apply : send ch req w = (.returned (answer ch req w), sent ch req w) := by
  unfold sent answer send
  split <;> rfl

/-- A request that the channel loses is lost with this very fault, if it was sent at all. -/
lemma answer_of_error {f : Fault} (hplain : isPlain req.address.host = true)
    (h : (ch.send req w.line).1 = .error f) : answer ch req w = .error f := by
  rw [answer, if_pos hplain, h]
  rfl

/-- A request that the channel answers has the response as it is accepted. -/
lemma answer_of_ok {r r' : Response} (hplain : isPlain req.address.host = true)
    (h : (ch.send req w.line).1 = .ok r) (hr : accept req r = .ok r') :
    answer ch req w = .ok r' := by
  have hbind (next : Response → Except Fault Response) : (Except.ok r).bind next = next r := rfl
  rw [answer, if_pos hplain, h, hbind, hr]

/-- A request is put down as sent if its address is one that requests are sent to, and then once. -/
lemma sent_requests : (sent ch req w).requests =
    w.requests ++ if isPlain req.address.host then [req] else [] := by
  unfold sent send
  split
  · rfl
  · exact (List.append_nil _).symm

/-- Sending a request is no pause. -/
lemma sent_pauses : (sent ch req w).pauses = w.pauses := by
  unfold sent send
  split <;> rfl

end Web

/-! ## Trying again -/

namespace Backoff

/-- A wait takes some time or none, and not more than is allowed, whatever is drawn for it.

**Proof sketch.** A wait is cut to what is allowed from above and to zero from below. The
comparisons are those of doubles, so that they fail for what is not a number, which then counts as
zero. -/
lemma wait_mem {s : Config.RetrySettings} (hs : s.Valid) (attempt : Nat) (drawn : Float) :
    0 ≤ wait s attempt drawn ∧ wait s attempt drawn ≤ s.maxWait := by
  have hzero : (0 : Float) ≤ 0 := by decide
  have hclamp (x : Float) : 0 ≤ clamp s.maxWait x ∧ clamp s.maxWait x ≤ s.maxWait := by
    have hmax := Binary.le_self_of_lt hs.maxWait
    unfold clamp
    by_cases hlt : s.maxWait < x
    · rw [if_pos hlt]
      dsimp only
      rw [if_pos hs.maxWait]
      exact ⟨Binary.le_of_lt hs.maxWait, hmax⟩
    · rw [if_neg hlt]
      dsimp only
      split
      · next hpos =>
        exact ⟨Binary.le_of_lt hpos, Binary.le_of_not_lt (Binary.le_self_of_lt hpos) hmax hlt⟩
      · exact ⟨hzero, Binary.le_of_lt hs.maxWait⟩
  unfold wait
  split <;> exact hclamp _

variable {ch : Web.Channel σ} {s : Config.RetrySettings} {req : Web.Request} {w : Web.Wire σ}

/-- The transport lost the request. -/
def IsLost (out : Except Fault Web.Response) : Prop := ∃ f, out = .error f ∧ f.isA .transport = true

/-- The wait after an attempt. -/
def pause (ch : Web.Channel σ) (s : Config.RetrySettings) (attempt : Nat) :
    Flow (Web.Wire σ) Unit := do
  Web.pause (wait s attempt (← jitter ch s))

/-- The world after so many requests that were lost, each of them followed by a wait. -/
def retried (ch : Web.Channel σ) (s : Config.RetrySettings) (req : Web.Request) (w : Web.Wire σ) :
    Nat → Web.Wire σ
  | 0 => w
  | k + 1 => (pause ch s (k + 1) (Web.sent ch req (retried ch s req w k))).2

/-- What the attempt after so many lost ones comes to. -/
def outcome (ch : Web.Channel σ) (s : Config.RetrySettings) (req : Web.Request) (w : Web.Wire σ)
    (k : Nat) : Except Fault Web.Response :=
  Web.answer ch req (retried ch s req w k)

/-- The pause between two attempts is never cut short. -/
lemma pause_returned (attempt : Nat) (w : Web.Wire σ) :
    (pause ch s attempt w).1 = .returned () := by
  unfold pause jitter
  split <;> rfl

/-- A pause takes a wait, and makes no request. -/
lemma exists_pause_eq (hs : s.Valid) (ch : Web.Channel σ) (attempt : Nat) (w : Web.Wire σ) :
    ∃ x, (0 ≤ x ∧ x ≤ s.maxWait) ∧ (pause ch s attempt w).2.requests = w.requests ∧
      (pause ch s attempt w).2.pauses = w.pauses ++ [x] := by
  unfold pause jitter
  split
  · exact ⟨_, wait_mem hs _ _, rfl, rfl⟩
  · exact ⟨_, wait_mem hs _ _, rfl, rfl⟩

/-- What lost requests leave behind: the requests, and one wait after each of them.

**Proof sketch.** Induction on the number of requests. Each one is sent, if its host can be, and is
followed by one wait, which is put behind the others. -/
lemma exists_retried_eq (hs : s.Valid) (ch : Web.Channel σ) (req : Web.Request) (w : Web.Wire σ)
    (n : Nat) : ∃ waits : List Float, waits.length = n ∧ (∀ x ∈ waits, 0 ≤ x ∧ x ≤ s.maxWait) ∧
      ∀ k ≤ n, (retried ch s req w k).pauses = w.pauses ++ waits.take k ∧
        (retried ch s req w k).requests =
          w.requests ++ if Web.isPlain req.address.host then List.replicate k req else [] := by
  induction n with
  | zero =>
    refine ⟨[], rfl, by simp, fun k hk => ?_⟩
    obtain rfl := Nat.le_zero.1 hk
    simp [retried]
  | succ n ih =>
    obtain ⟨waits, rfl, hwaits, hbefore⟩ := ih
    obtain ⟨hpauses, hrequests⟩ := hbefore waits.length le_rfl
    obtain ⟨x, hx, hrequests', hpauses'⟩ := exists_pause_eq hs ch (waits.length + 1)
      (Web.sent ch req (retried ch s req w waits.length))
    refine ⟨waits ++ [x], by simp, fun y hy => ?_, fun k hk => ?_⟩
    · rcases List.mem_append.1 hy with hy | hy
      · exact hwaits y hy
      · exact List.mem_singleton.1 hy ▸ hx
    · rcases Nat.le_succ_iff.1 hk with hk | rfl
      · rw [List.take_append_of_le_length hk]
        exact hbefore k hk
      · constructor
        · rw [retried, hpauses', Web.sent_pauses, hpauses, List.append_assoc]
          simp
        · rw [retried, hrequests', Web.sent_requests, hrequests, List.append_assoc]
          split
          · rw [List.replicate_succ']
          · rfl

/-- A try that was not lost, or that has no other one behind it, is the last one.

**Proof sketch.** A try with no other one behind it comes to what its answer is. One with others
behind it is tried again only if its fault is one of the transport. -/
lemma postFrom_of_last {more k : Nat} (h : more = 0 ∨ ¬ IsLost (outcome ch s req w k)) :
    postFrom ch s req more (k + 1) (retried ch s req w k) =
      Flow.ofExcept (outcome ch s req w k) (Web.sent ch req (retried ch s req w k)) := by
  cases more with
  | zero =>
    unfold postFrom
    rw [Flow.bind_of_returned Web.send_apply]
    rfl
  | succ more =>
    unfold postFrom
    rw [Flow.bind_of_returned Web.send_apply]
    cases hout : Web.answer ch req (retried ch s req w k) with
    | ok r =>
      rw [outcome, hout]
      rfl
    | error f =>
      have hlost : ¬ f.isA .transport = true := fun hf =>
        (h.resolve_left (by simp)) ⟨f, hout, hf⟩
      dsimp only
      rw [if_neg hlost, outcome, hout]
      rfl

/-- A try that was lost, and has another one behind it, is followed by a wait and the next try.

**Proof sketch.** The fault of the try counts as a loss, so the next step is the pause before the
following try; and the pause comes to an end. -/
lemma postFrom_of_lost {more k : Nat} (h : IsLost (outcome ch s req w k)) :
    postFrom ch s req (more + 1) (k + 1) (retried ch s req w k) =
      postFrom ch s req more (k + 2) (retried ch s req w (k + 1)) := by
  obtain ⟨f, hf, hlost⟩ := h
  have hpause : (pause ch s (k + 1) (Web.sent ch req (retried ch s req w k))) =
      (.returned (), retried ch s req w (k + 1)) := Prod.ext (pause_returned _ _) rfl
  conv => lhs; unfold postFrom
  rw [Flow.bind_of_returned Web.send_apply]
  rw [outcome] at hf
  rw [hf]
  dsimp only
  rw [if_pos hlost, ← Flow.bind_of_returned (f := fun _ => postFrom ch s req more (k + 2)) hpause]
  exact (Flow.bind_assoc_apply _).symm

/-- **A request that is tried again** comes to what its last try comes to. All tries before it were
lost, and it was not or was the last one allowed.

**Proof sketch.** Induction on the tries that are left. A try that was lost, and has others behind
it, is followed by the rest, with one request and one wait more behind it. -/
theorem exists_postFrom_eq (ch : Web.Channel σ) (s : Config.RetrySettings) (req : Web.Request)
    (w : Web.Wire σ) (more k : Nat) : ∃ n ≤ more,
      (∀ i < n, IsLost (outcome ch s req w (k + i))) ∧
      (n = more ∨ ¬ IsLost (outcome ch s req w (k + n))) ∧
      postFrom ch s req more (k + 1) (retried ch s req w k) =
        Flow.ofExcept (outcome ch s req w (k + n))
          (Web.sent ch req (retried ch s req w (k + n))) := by
  induction more generalizing k with
  | zero => exact ⟨0, le_rfl, by simp, .inl rfl, postFrom_of_last (.inl rfl)⟩
  | succ more ih =>
    by_cases hlost : IsLost (outcome ch s req w k)
    · obtain ⟨n, hn, hbefore, hlast, hpost⟩ := ih (k + 1)
      have hadd (i : Nat) : k + 1 + i = k + (i + 1) := by omega
      rw [hadd n] at hlast hpost
      refine ⟨n + 1, Nat.succ_le_succ hn, fun i hi => ?_, hlast.imp_left (congrArg Nat.succ), ?_⟩
      · cases i with
        | zero => exact hlost
        | succ i => exact hadd i ▸ hbefore i (Nat.lt_of_succ_lt_succ hi)
      · exact (postFrom_of_lost hlost).trans hpost
    · exact ⟨0, Nat.zero_le _, by simp, .inr hlost, postFrom_of_last (.inr hlost)⟩

/-- A request is tried as often as the settings allow, or once more than the transport loses it
first.

**Proof sketch.** By `exists_postFrom_eq` there is a last try, and all before it were lost. If the
transport loses fewer than are allowed, this is the first that it does not lose; otherwise all that
are allowed are made. -/
theorem exists_post_eq (hs : s.Valid) (ch : Web.Channel σ) (req : Web.Request) (w : Web.Wire σ) :
    ∃ n : Nat, post ch s req w =
        Flow.ofExcept (outcome ch s req w n) (Web.sent ch req (retried ch s req w n)) ∧
      (∀ m, (∀ k < m, IsLost (outcome ch s req w k)) → ¬ IsLost (outcome ch s req w m) →
        n + 1 = min s.attempts.toNat (m + 1)) ∧
      ((∀ k, IsLost (outcome ch s req w k)) → n + 1 = s.attempts.toNat) := by
  have hattempts := hs.attempts
  obtain ⟨n, hn, hbefore, hlast, hpost⟩ :=
    exists_postFrom_eq ch s req w (s.attempts.toNat - 1) 0
  simp only [Nat.zero_add] at hbefore hlast hpost
  refine ⟨n, hpost, fun m hm hkept => ?_, fun hall => ?_⟩
  · have hle : n ≤ m := not_lt.1 fun hlt => hkept (hbefore m hlt)
    rcases hlast with rfl | hkept'
    · omega
    · have hge : m ≤ n := not_lt.1 fun hlt => hkept' (hm n hlt)
      omega
  · have heq := hlast.resolve_right (not_not.2 (hall n))
    omega

end Backoff

/-! ## The exchange -/

namespace IdentityService

variable {s : IdentityService} {ch : Web.Channel σ} {c : Credentials} {w : Web.Wire σ}

/-- An answer holds a token. In version 2 the token is a part of the document; in version 3 it is a
header, and the document says until when it is valid. An instant without an offset is one of local
time. -/
inductive Holds (zone : Expiry.Zone) (r : Web.Response) (t : Token Float) : IdentityVersion → Prop
  | v2 {document access token expires : Value} (hdocument : r.document = .ok document)
      (haccess : document.index "access" = .ok access)
      (htoken : access.index "token" = .ok token) (hid : token.index "id" = .ok t.id)
      (hexpires : token.get "expires" = .ok expires)
      (hvalid : expiry expires zone = .ok t.validUntil) : Holds zone r t .v2
  | v3 {id : String} {fields : List (String × Value)} {expires : Value}
      (hheader : r.header? tokenHeader = some id) (hne : id ≠ "") (hid : t.id = .text id)
      (hdocument : r.document = .ok (.record fields))
      (hexpires : ((fields.lookup "token").getD (.record [])).get "expires_at" = .ok expires)
      (hvalid : expiry expires zone = .ok t.validUntil) : Holds zone r t .v3

/-- The token in an answer is what the answer holds.

**Proof sketch.** Follow the steps in which the token is read, for each of the versions. As none of
them failed, the answer has what each of them looks for. -/
lemma holds_of_tokenOf {r : Web.Response} {t : Token Float} (h : s.tokenOf r = .ok t) :
    Holds s.zone r t s.version := by
  unfold tokenOf at h
  cases hversion : s.version with
  | v2 =>
    rw [hversion] at h
    obtain ⟨document, hdocument, h⟩ := exists_of_bind_eq_ok h
    obtain ⟨access, haccess, h⟩ := exists_of_bind_eq_ok h
    obtain ⟨token, htoken, h⟩ := exists_of_bind_eq_ok h
    obtain ⟨id, hid, h⟩ := exists_of_bind_eq_ok h
    obtain ⟨expires, hexpires, h⟩ := exists_of_bind_eq_ok h
    obtain ⟨limit, hvalid, h⟩ := exists_of_bind_eq_ok h
    obtain rfl : ⟨id, limit⟩ = t := Except.ok.inj h
    exact .v2 hdocument haccess htoken hid hexpires hvalid
  | v3 =>
    rw [hversion] at h
    change s.headerToken r = .ok t at h
    unfold headerToken at h
    dsimp only at h
    split at h
    · exact absurd h (by simp [throw, throwThe, MonadExceptOf.throw, bind, Except.bind])
    · next hne =>
      obtain ⟨document, hdocument, h⟩ := exists_of_bind_eq_ok h
      obtain ⟨token, fields, rfl, rfl, h⟩ : ∃ token fields, document = .record fields ∧
          token = (fields.lookup "token").getD (.record []) ∧
          (do return ⟨.text ((r.header? tokenHeader).getD ""),
            ← expiry (← token.get "expires_at") s.zone⟩ : Except Fault (Token Float)) = .ok t := by
        cases document with
        | record fields => exact ⟨_, fields, rfl, rfl, h⟩
        | null | bool | int | float | text | list =>
          obtain ⟨token, htoken, -⟩ := exists_of_bind_eq_ok h
          exact absurd htoken (by simp [Value.get])
      obtain ⟨expires, hexpires, h⟩ := exists_of_bind_eq_ok h
      obtain ⟨limit, hvalid, h⟩ := exists_of_bind_eq_ok h
      obtain rfl := Except.ok.inj h
      cases hheader : r.header? tokenHeader with
      | none => exact absurd (by rw [hheader]; rfl) hne
      | some id =>
        rw [hheader] at hne
        exact .v3 hheader hne rfl hdocument hexpires hvalid

/-- What an answer holds is the token in it: if each part is where the version has it, none of the
steps that read the token fails. -/
lemma Holds.tokenOf {r : Web.Response} {t : Token Float} (h : Holds s.zone r t s.version) :
    s.tokenOf r = .ok t := by
  unfold IdentityService.tokenOf
  generalize s.version = version at h
  cases h with
  | v2 hdocument haccess htoken hid hexpires hvalid =>
    simp only [documentToken, hdocument, haccess, htoken, hid, hexpires, hvalid, bind,
      Except.bind, pure, Except.pure]
  | v3 hheader hne hid hdocument hexpires hvalid =>
    simp only [headerToken, hheader, Option.getD_some, hne, hdocument, hexpires, hvalid, bind,
      Except.bind, pure, Except.pure, if_false, ← hid]

/-- How an answer is judged: by its status, and only then by what it holds.

**Proof sketch.** The three ranges of the status exclude one another. -/
lemma judge_cases (s : IdentityService) (c : Credentials) (r : Web.Response) :
    (r.status = 401 ∨ r.status = 403 →
      ∃ text, s.judge c r = .error (.lifecycle .authenticationFailed text {})) ∧
    (r.status ≠ 401 → r.status ≠ 403 → ¬ (200 ≤ r.status ∧ r.status < 300) →
      s.judge c r = .error (.badStatus r.status)) ∧
    (200 ≤ r.status → r.status < 300 → s.judge c r = s.tokenOf r) := by
  unfold judge
  refine ⟨fun h => ?_, fun h₁ h₂ h₃ => ?_, fun h₁ h₂ => ?_⟩
  · rw [if_pos (by simpa [Web.Response.isRejection] using h)]
    exact ⟨_, rfl⟩
  · rw [if_neg (by simp [Web.Response.isRejection, h₁, h₂]),
      if_pos (by simp [Web.Response.isSuccess]; omega)]
  · rw [if_neg (by simp [Web.Response.isRejection]; omega),
      if_neg (by simp [Web.Response.isSuccess, h₁, h₂])]

/-- Only an answer that reports success yields a token, which it holds. -/
lemma holds_of_judge {r : Web.Response} {t : Token Float} (h : s.judge c r = .ok t) :
    200 ≤ r.status ∧ r.status < 300 ∧ Holds s.zone r t s.version := by
  obtain ⟨hrejected, hfailed, hsuccess⟩ := s.judge_cases c r
  by_cases hrange : 200 ≤ r.status ∧ r.status < 300
  · exact ⟨hrange.1, hrange.2, holds_of_tokenOf ((hsuccess hrange.1 hrange.2).symm.trans h)⟩
  · by_cases hrejection : r.status = 401 ∨ r.status = 403
    · obtain ⟨text, htext⟩ := hrejected hrejection
      exact absurd (htext.symm.trans h) (by simp)
    · obtain ⟨h₁, h₂⟩ := not_or.1 hrejection
      exact absurd ((hfailed h₁ h₂ hrange).symm.trans h) (by simp)

/-- Credentials that the version accepts can be posted. -/
lemma exists_requestBody_eq (hc : s.version = .v2 ∨ c.kind = .password) :
    ∃ body, s.requestBody c = .ok body := by
  unfold requestBody
  split
  · exact ⟨_, rfl⟩
  · next hversion =>
    have hkind : c.kind = .password := hc.resolve_left (by simp [hversion])
    unfold scopedBody
    rw [hkind]
    exact ⟨_, rfl⟩

/-- What an exchange comes to when its address is valid: what the answer comes to.

**Proof sketch.** The body and the address are there, so that the exchange is the request that is
tried again, and then the judgement on its answer, which calls for nothing. -/
lemma authenticate_of_post {body : Value} {address : Address} (hbody : s.requestBody c = .ok body)
    (haddress : s.address.join s.path = .ok address) {out : Except Fault Web.Response}
    {w' : Web.Wire σ}
    (hpost : Backoff.post ch s.retry ⟨address, body⟩ w = Flow.ofExcept out w') :
    (s.authenticate ch c w).2.requests = w'.requests ∧
      (s.authenticate ch c w).2.pauses = w'.pauses ∧
      (∀ f, out = .error f → (s.authenticate ch c w).1 = .raised f) ∧
      ∀ r, out = .ok r →
        (∀ f, s.judge c r = .error f → (s.authenticate ch c w).1 = .raised f) ∧
        ∀ t, s.judge c r = .ok t → (s.authenticate ch c w).1 = .returned t := by
  have hjoin : orBadAddress (s.address.join s.path) = .ok address := by
    rw [haddress]
    rfl
  unfold authenticate
  rw [Flow.ofExcept_bind_of_ok hbody, Flow.ofExcept_bind_of_ok hjoin]
  cases out with
  | error f =>
    rw [Flow.bind_of_raised hpost]
    exact ⟨rfl, rfl, fun g hg => congrArg Ending.raised (Except.error.inj hg), by simp⟩
  | ok r =>
    rw [Flow.bind_of_returned hpost]
    cases hjudge : s.judge c r with
    | error f =>
      refine ⟨rfl, rfl, by simp, ?_⟩
      rintro _ ⟨⟩
      rw [hjudge]
      exact ⟨fun g hg => congrArg Ending.raised (Except.error.inj hg), by simp⟩
    | ok t =>
      rw [Flow.ofExcept_bind_of_ok rfl]
      refine ⟨rfl, rfl, by simp, ?_⟩
      rintro _ ⟨⟩
      rw [hjudge]
      exact ⟨by simp, fun u hu => congrArg Ending.returned (Except.ok.inj hu)⟩

/-- **The requests of an exchange and its outcome.** Credentials that the version accepts are posted
as often as the transport loses the request first, and once more, but not more often than the
settings allow. All requests are the same. Before a request there is one wait for each request
before it, of some time or none and not more than is allowed, and there is none after the last one.
What the exchange comes to is told by its last answer alone: a fault stays what it is, even if it is
that the transport lost the request; an answer that lets nobody in is a failed authentication; every
other answer that reports no success is a bad status; and an answer that reports success gives the
token that it holds, or the fault of reading it. Nothing else gives a token. If there is no valid
address to post to, nothing is sent; nor is it if the host cannot be written, which is the only
answer then.

**Proof sketch.** Settings that were read keep their bounds, so that one attempt at least is allowed
and no wait is too long. Trying again is followed through the worlds before each try. The last try
is the first one that is not lost, or the last one that is allowed. -/
theorem authenticate_outcome (s : IdentityService) {v : Value}
    (hretry : Config.RetrySettings.read v = .ok s.retry) (ch : Web.Channel σ)
    {c : Credentials} (hc : s.version = .v2 ∨ c.kind = .password) (w : Web.Wire σ) :
    ∃ body, s.requestBody c = .ok body ∧
      (∀ flaw, s.address.join s.path = .error flaw →
        s.authenticate ch c w = (.raised (.misfit .badAddress flaw.message), w)) ∧
      ∀ address, s.address.join s.path = .ok address →
        ∃ (n : ℕ) (waits : List Float) (before : ℕ → Web.Wire σ)
          (outcome : ℕ → Except Fault Web.Response),
        before = Backoff.retried ch s.retry ⟨address, body⟩ w ∧
        outcome = (fun k => Web.answer ch ⟨address, body⟩ (before k)) ∧
        -- the number of requests
        (∀ m, (∀ k < m, Backoff.IsLost (outcome k)) → ¬ Backoff.IsLost (outcome m) →
          n + 1 = min s.retry.attempts.toNat (m + 1)) ∧
        ((∀ k, Backoff.IsLost (outcome k)) → n + 1 = s.retry.attempts.toNat) ∧
        (s.authenticate ch c w).2.requests = w.requests ++
          (if Web.isPlain address.host then List.replicate (n + 1) ⟨address, body⟩ else []) ∧
        -- the waits
        (s.authenticate ch c w).2.pauses = w.pauses ++ waits ∧ waits.length = n ∧
        (∀ x ∈ waits, 0 ≤ x ∧ x ≤ s.retry.maxWait) ∧
        (∀ k ≤ n, (before k).pauses = w.pauses ++ waits.take k ∧ (before k).requests =
          w.requests ++ if Web.isPlain address.host then List.replicate k ⟨address, body⟩ else []) ∧
        -- the result
        (∀ f, outcome n = .error f → (s.authenticate ch c w).1 = .raised f) ∧
        (∀ r, outcome n = .ok r →
          (r.status = 401 ∨ r.status = 403 → ∃ f, (s.authenticate ch c w).1 = .raised f ∧
            f.kind = .authenticationFailed) ∧
          (r.status ≠ 401 → r.status ≠ 403 → ¬ (200 ≤ r.status ∧ r.status < 300) →
            (s.authenticate ch c w).1 = .raised (.badStatus r.status)) ∧
          (200 ≤ r.status → r.status < 300 →
            (∀ t, Holds s.zone r t s.version → (s.authenticate ch c w).1 = .returned t) ∧
            ∀ f, s.tokenOf r = .error f → (s.authenticate ch c w).1 = .raised f)) ∧
        ∀ t, (s.authenticate ch c w).1 = .returned t → ∃ r, outcome n = .ok r ∧
          200 ≤ r.status ∧ r.status < 300 ∧ Holds s.zone r t s.version := by
  have hvalid : s.retry.Valid := Config.RetrySettings.valid_of_read hretry
  obtain ⟨body, hbody⟩ := exists_requestBody_eq hc
  refine ⟨body, hbody, fun flaw hflaw => ?_, fun address haddress => ?_⟩
  · have hjoin : orBadAddress (s.address.join s.path) =
        .error (.misfit .badAddress flaw.message) := by
      rw [hflaw]
      rfl
    unfold authenticate
    rw [Flow.ofExcept_bind_of_ok hbody, hjoin]
    rfl
  · obtain ⟨n, hpost, hcount, hall⟩ := Backoff.exists_post_eq hvalid ch ⟨address, body⟩ w
    obtain ⟨waits, hlength, hwaits, hbefore⟩ :=
      Backoff.exists_retried_eq hvalid ch ⟨address, body⟩ w n
    obtain ⟨hrequests, hpauses, hraised, hanswered⟩ := authenticate_of_post hbody haddress hpost
    obtain ⟨hpausesBefore, hrequestsBefore⟩ := hbefore n le_rfl
    refine ⟨n, waits, _, _, rfl, rfl, hcount, hall, ?_, ?_, hlength, hwaits, hbefore, hraised,
      fun r hr => ?_, fun t ht => ?_⟩
    · rw [hrequests, Web.sent_requests, hrequestsBefore, List.append_assoc, List.replicate_succ']
      split <;> rfl
    · rw [hpauses, Web.sent_pauses, hpausesBefore, ← hlength, List.take_length]
    · obtain ⟨hrejected, hfailed, hsuccess⟩ := s.judge_cases c r
      obtain ⟨hfault, htoken⟩ := hanswered r hr
      refine ⟨fun h => ?_, fun h₁ h₂ h₃ => hfault _ (hfailed h₁ h₂ h₃), fun h₁ h₂ =>
        ⟨fun t ht => ?_, fun f hf => ?_⟩⟩
      · obtain ⟨text, htext⟩ := hrejected h
        exact ⟨_, hfault _ htext, rfl⟩
      · exact htoken t ((hsuccess h₁ h₂).trans ht.tokenOf)
      · exact hfault f ((hsuccess h₁ h₂).trans hf)
    · cases hlast : Backoff.outcome ch s.retry ⟨address, body⟩ w n with
      | error f => exact absurd ((hraised f hlast).symm.trans ht) (by simp)
      | ok r =>
        obtain ⟨hfault, htoken⟩ := hanswered r hlast
        cases hjudge : s.judge c r with
        | error f => exact absurd ((hfault f hjudge).symm.trans ht) (by simp)
        | ok u =>
          obtain rfl := Ending.returned.inj ((htoken u hjudge).symm.trans ht)
          exact ⟨r, hlast, holds_of_judge hjudge⟩

/-- A service that is asked twice at most, by those whose clocks are two hours ahead. -/
def twice : IdentityService where
  version := .v2
  endpoint := "http://identity"
  address := ⟨"http", "", "identity", none, "", none, none⟩
  retry := { attempts := 2 }
  zone := .fixed 7200

/-- An answer with a token that is valid until two o'clock in local time. -/
def granted : Web.Response where
  status := 200
  content := (Json.render (.record [("access", .record [("token", .record
    [("id", .text "t-1"), ("expires", .text "2030-01-01T02:00:00")])])])).toUTF8.toList

/-- A channel that loses the first request, and grants the later ones a token. -/
def unsteady : Web.Channel ℕ where
  send _ n := (if n = 0 then .error (.ofKind .connect (some "down")) else .ok granted, n + 1)
  draw bound n := (bound, n)

/-- An exchange over this channel. -/
def served : Ending (Token Float) × Web.Wire ℕ :=
  twice.authenticate unsteady ⟨"guest", "secret", .password⟩ { line := 0 }

/-- The token in the answer is valid until midnight in universal time. -/
lemma exists_tokenOf_granted : ∃ t, twice.tokenOf granted = .ok t ∧ t.id.shown = "t-1" ∧
    t.validUntil = some 1893456000 := by
  have hread : ((twice.tokenOf granted).toOption.any fun t =>
      t.id.shown = "t-1" ∧ t.validUntil = some 1893456000) = true := by decide +kernel
  cases htoken : twice.tokenOf granted with
  | error f => exact absurd hread (by simp [htoken, Except.toOption])
  | ok t => exact ⟨t, rfl, by simpa [htoken, Except.toOption] using hread⟩

/-- The request that was lost is sent again after a wait, and the token of the answer to the second
one is what the exchange comes to.

**Proof sketch.** The theorem is applied to this exchange. The first request is lost and the second
one is answered, which leaves two tries by the clause on their number; and the answer holds a token,
which is the one that is returned. -/
theorem authenticate_outcome_unsteady :
    Config.RetrySettings.read (.record [("max_attempts", .int 2)]) = .ok twice.retry ∧
      twice.version = .v2 ∧
      (∃ t, served.1 = .returned t ∧ t.id.shown = "t-1" ∧ t.validUntil = some 1893456000) ∧
      (∃ req, served.2.requests = [req, req]) ∧
      ∃ x, served.2.pauses = [x] ∧ 0 ≤ x ∧ x ≤ twice.retry.maxWait := by
  unfold served
  have hread : Config.RetrySettings.read (.record [("max_attempts", .int 2)]) =
      .ok twice.retry := rfl
  obtain ⟨body, -, -, H⟩ := authenticate_outcome twice hread unsteady
    (c := ⟨"guest", "secret", .password⟩) (.inl rfl) { line := 0 }
  obtain ⟨n, waits, before, outcome, hbefore, houtcome, hcount, -, hrequests, hpauses, hlength,
    hwaits, -, -, hanswered, -⟩ :=
    H ⟨"http", "", "identity", none, "/tokens", none, none⟩ (by decide +kernel)
  have hplain : Web.isPlain "identity" = true := by decide +kernel
  have haccept (body : Value) :
      Web.accept ⟨⟨"http", "", "identity", none, "/tokens", none, none⟩, body⟩ granted =
        .ok granted := by
    have horigin : Web.checkOrigin
        (Address.text ⟨"http", "", "identity", none, "/tokens", none, none⟩) = .ok () := by rfl
    rw [Web.accept, horigin]
    rfl
  have hline : (before 1).line = 1 := by
    rw [hbefore, Backoff.retried, Backoff.retried, Web.sent, Web.send, if_pos hplain]
    rfl
  have hlost : Backoff.IsLost (outcome 0) := by
    rw [houtcome, hbefore]
    exact ⟨.ofKind .connect (some "down"), Web.answer_of_error hplain rfl, rfl⟩
  have hkept : outcome 1 = .ok granted := by
    rw [houtcome]
    refine Web.answer_of_ok hplain ?_ (haccept body)
    rw [hline]
    rfl
  have htwice : n + 1 = min twice.retry.attempts.toNat (1 + 1) := by
    refine hcount 1 (fun k hk => ?_) fun h => ?_
    · obtain rfl := Nat.lt_one_iff.1 hk
      exact hlost
    · obtain ⟨f, hf, -⟩ := h
      exact absurd (hkept.symm.trans hf) (by simp)
  obtain rfl : n = 1 := Nat.succ.inj htwice
  obtain ⟨x, rfl⟩ := List.length_eq_one_iff.1 hlength
  rw [if_pos hplain] at hrequests
  obtain ⟨t, htoken, hid, hlimit⟩ := exists_tokenOf_granted
  have hserved := ((hanswered _ hkept).2.2 (by decide) (by decide)).1 t (holds_of_tokenOf htoken)
  rw [hpauses, hrequests]
  exact ⟨hread, rfl, ⟨t, hserved, hid, hlimit⟩, ⟨_, rfl⟩, x, rfl,
    hwaits x (List.mem_singleton_self x)⟩

end IdentityService

end NodeKeeper
