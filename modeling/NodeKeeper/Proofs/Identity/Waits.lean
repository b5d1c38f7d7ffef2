import Mathlib
import NodeKeeper.Proofs.Decimal.Value
import NodeKeeper.Proofs.Identity.Retries

/-!
# How waits grow

The waits between requests that were lost double from one to the next, up to the longest one that is
allowed. Doubling is exact, so the waits are known as rational numbers. A random amount that is
added makes a wait longer, but not longer than the longest one. The multiplier of the settings
bounds the random amount, and has no part in the growth.

## Main definitions

* `Config.RetrySettings.due` — the wait that is due if the first one grows by a factor.
* `Backoff.IsWait` — a wait after so many lost requests.

## Main results

* `Backoff.exists_value_wait_eq` — a wait as a rational number.
* `IdentityService.authenticate_waits` — the waits of an exchange, and when they are those that the
  multiplier of the settings suggests.

## Implementation notes

The power of two that a wait has grown by is a double up to `2 ^ 1023`. From the next one on, the
wait is the longest one, however short the first one was.
-/

namespace NodeKeeper

open Binary

variable {σ : Type}

namespace Config

/-- Settings of which all numbers are finite. -/
structure RetrySettings.IsFinite (s : RetrySettings) : Prop where
  initialWait : s.initialWait.isFinite = true
  maxWait : s.maxWait.isFinite = true
  multiplier : s.multiplier.isFinite = true

/-- The wait that is due after a first one and so many others, if waits grow by a factor. -/
def RetrySettings.due (s : RetrySettings) (factor : ℚ) (k : ℕ) : ℚ :=
  min (value s.maxWait) (value s.initialWait * factor ^ k)

/-- Two factors make the same wait due if it is the first one, or if both make it too long.

**Proof sketch.** Below the bound two waits are the same just if their powers are, and, apart from
the first one, just if the factors are. If one of them reaches the bound, both have to. -/
lemma RetrySettings.due_eq_due_iff {s : RetrySettings} {f g : ℚ} (hpos : 0 < value s.initialWait)
    (hf : 0 ≤ f) (hg : 0 ≤ g) (k : ℕ) :
    s.due f k = s.due g k ↔ k = 0 ∨ f = g ∨
      value s.maxWait ≤ value s.initialWait * f ^ k ∧
        value s.maxWait ≤ value s.initialWait * g ^ k := by
  have hgrowth : value s.initialWait * f ^ k = value s.initialWait * g ^ k ↔ k = 0 ∨ f = g := by
    rcases Nat.eq_zero_or_pos k with rfl | hk
    · simp
    · rw [mul_right_inj' hpos.ne', pow_left_inj₀ hf hg hk.ne']
      simp [hk.ne']
  rw [← or_assoc, ← hgrowth]
  unfold due
  generalize value s.initialWait * f ^ k = x
  generalize value s.initialWait * g ^ k = y
  constructor
  · intro h
    rcases le_or_gt (value s.maxWait) x with hx | hx
    · refine .inr ⟨hx, ?_⟩
      rw [min_eq_left hx] at h
      exact min_eq_left_iff.1 h.symm
    · rw [min_eq_right hx.le] at h
      have hy : y < value s.maxWait := by
        rcases min_lt_iff.1 (h ▸ hx) with hlt | hlt
        · exact absurd hlt (lt_irrefl _)
        · exact hlt
      exact .inl (h.trans (min_eq_right hy.le))
  · rintro (rfl | ⟨hx, hy⟩)
    · rfl
    · rw [min_eq_left hx, min_eq_left hy]

end Config

namespace Backoff

variable {s : Config.RetrySettings} {k : ℕ} {drawn : Float}

/-- Cutting down an amount cuts down its value.

**Proof sketch.** Comparing floats is comparing values, so the smaller float has the smaller value.
Both are positive, so that neither is cut off at zero. -/
lemma value_clamp {limit x : Float} {q : ℚ} (hpos : 0 < limit) (hfinite : limit.isFinite = true)
    (hx : Denotes q x.toModel.unpack) : value (clamp limit x) = min (value limit) q := by
  have hlimit := denotes_value hpos hfinite
  have hlt : limit < x ↔ value limit < q := hlimit.lt_iff hfinite hx
  unfold clamp
  by_cases h : limit < x
  · rw [if_pos h, min_eq_left (hlt.1 h).le]
    dsimp only
    rw [if_pos hpos]
  · have hle : q ≤ value limit := not_lt.1 (hlt.not.1 h)
    rw [if_neg h, min_eq_right hle]
    dsimp only
    rw [if_pos hx.zero_lt]
    exact hx.value_eq (hx.isFinite_iff.2 (hle.trans_lt (hlimit.isFinite_iff.1 hfinite)))

/-- The factor by which a wait has grown is a power of two, as long as it is one that a float can
have. -/
lemma growth?_of_lt (hk : k < 1024) :
    growth? (k + 1 - 1) = some (Decimal.ofInt (1 <<< k : ℕ)) := if_pos hk

/-- What the first wait has grown to. -/
lemma denotes_grown (hs : s.Valid) (hfinite : s.IsFinite) (hk : k < 1024) :
    Denotes (value s.initialWait * 2 ^ k)
      (s.initialWait * Decimal.ofInt (1 <<< k : ℕ)).toModel.unpack :=
  (denotes_value hs.initialWait hfinite.initialWait).mul hfinite.initialWait
    (Decimal.denotes_ofInt hk) hk

/-- **A wait as a rational number.** It has doubled with each lost request after the first, and an
amount that is drawn makes it longer, but not longer than the longest one. -/
lemma exists_value_wait_eq (hs : s.Valid) (hfinite : s.IsFinite) (hk : k < 1024)
    (hdrawn : 0 ≤ drawn) :
    ∃ q, value s.initialWait * 2 ^ k ≤ q ∧
      value (wait s (k + 1) drawn) = min (value s.maxWait) q := by
  obtain ⟨q, hle, hq⟩ := (denotes_grown hs hfinite hk).exists_add hdrawn
  unfold wait
  rw [growth?_of_lt hk]
  exact ⟨q, hle, value_clamp hs.maxWait hfinite.maxWait hq⟩

/-- Without an amount that is drawn, a wait has doubled with each lost request after the first. -/
lemma value_wait_zero (hs : s.Valid) (hfinite : s.IsFinite) (hk : k < 1024) :
    value (wait s (k + 1) 0.0) = s.due 2 k := by
  unfold wait
  rw [growth?_of_lt hk]
  exact value_clamp hs.maxWait hfinite.maxWait
    ((denotes_grown hs hfinite hk).add_zero (s := .positive) rfl)

/-- What would have doubled too often to be a double is the longest wait. -/
lemma wait_eq_maxWait (hs : s.Valid) (hk : 1024 ≤ k) (drawn : Float) :
    wait s (k + 1) drawn = s.maxWait := by
  have hgrowth : growth? (k + 1 - 1) = none := if_neg (Nat.not_lt.2 hk)
  unfold wait
  rw [hgrowth]
  unfold clamp
  dsimp only
  rw [ite_self, if_pos hs.maxWait]

/-- A wait after so many lost requests and one more, with an amount that is drawn for it. -/
def IsWait (s : Config.RetrySettings) (k : ℕ) (x : Float) : Prop :=
  ∃ drawn : Float, 0 ≤ drawn ∧ (s.jitter = false → drawn = 0.0) ∧ x = wait s (k + 1) drawn

/-- What is known of a wait: its least and its largest value, and its value if nothing is drawn.

**Proof sketch.** For an exponent that fits a float, the wait is the cut-off product, and what is
drawn only adds to it. For all others it is the longest wait. -/
lemma IsWait.value_mem {x : Float} (h : IsWait s k x) (hs : s.Valid) (hfinite : s.IsFinite) :
    value x ≤ value s.maxWait ∧ (1024 ≤ k → value x = value s.maxWait) ∧
      (k < 1024 → s.due 2 k ≤ value x ∧ (s.jitter = false → value x = s.due 2 k)) := by
  obtain ⟨drawn, hdrawn, hnone, rfl⟩ := h
  rcases Nat.lt_or_ge k 1024 with hk | hk
  · obtain ⟨q, hle, hq⟩ := exists_value_wait_eq hs hfinite hk hdrawn
    refine ⟨hq ▸ min_le_left _ _, fun hk' => absurd hk hk'.not_gt, fun _ => ⟨?_, ?_⟩⟩
    · rw [hq]
      exact min_le_min_left _ hle
    · intro hjitter
      rw [hnone hjitter]
      exact value_wait_zero hs hfinite hk
  · rw [wait_eq_maxWait hs hk]
    exact ⟨le_rfl, fun _ => rfl, fun hk' => absurd hk hk'.not_ge⟩

variable {ch : Web.Channel σ}

/-- A pause takes a wait. -/
lemma exists_isWait_pause
    (hdraw : s.jitter = true → ∀ line, 0 ≤ (ch.draw s.multiplier line).1) (k : ℕ)
    (w : Web.Wire σ) :
    ∃ x, IsWait s k x ∧ (pause ch s (k + 1) w).2.pauses = w.pauses ++ [x] := by
  unfold pause jitter
  split
  · next hjitter =>
    have hnone (h : s.jitter = false) : (ch.draw s.multiplier w.line).1 = 0.0 :=
      absurd (h.symm.trans hjitter) (by decide)
    exact ⟨_, ⟨_, hdraw hjitter w.line, hnone, rfl⟩, rfl⟩
  · exact ⟨_, ⟨0.0, by decide, fun _ => rfl, rfl⟩, rfl⟩

/-- **The waits after lost requests**, one by one.

**Proof sketch.** The waits are those of `exists_retried_eq`. Each of them is what one pause adds to
the pauses before it, and that is a wait as it should be, by `exists_isWait_pause`. -/
lemma exists_isWait_retried (hs : s.Valid)
    (hdraw : s.jitter = true → ∀ line, 0 ≤ (ch.draw s.multiplier line).1) (req : Web.Request)
    (w : Web.Wire σ) (n : ℕ) :
    ∃ waits : List Float, waits.length = n ∧ (∀ k x, waits[k]? = some x → IsWait s k x) ∧
      (retried ch s req w n).pauses = w.pauses ++ waits ∧
      (retried ch s req w n).requests =
        w.requests ++ if Web.isPlain req.address.host then List.replicate n req else [] := by
  obtain ⟨waits, rfl, -, hbefore⟩ := exists_retried_eq hs ch req w n
  obtain ⟨hpauses, hrequests⟩ := hbefore waits.length le_rfl
  rw [List.take_length] at hpauses
  refine ⟨waits, rfl, fun k x hx => ?_, hpauses, hrequests⟩
  -- the wait is what the pause adds to the pauses before it
  obtain ⟨hk, rfl⟩ := List.getElem?_eq_some_iff.1 hx
  obtain ⟨y, hy, hpause⟩ := exists_isWait_pause hdraw k (Web.sent ch req (retried ch s req w k))
  have hnext := (hbefore (k + 1) hk).1
  rw [retried, hpause, Web.sent_pauses, (hbefore k hk.le).1, List.append_assoc,
    List.take_succ_eq_append_getElem hk] at hnext
  simp only [List.append_cancel_left_eq, List.cons.injEq, and_true] at hnext
  exact hnext ▸ hy

end Backoff

namespace IdentityService

variable {ch : Web.Channel σ}

/-- An exchange leaves what its lost requests leave, if it gets as far as to send any.

**Proof sketch.** If the body or the address fails, nothing is sent. If not, `exists_postFrom_eq`
says how many requests were lost; and a host that cannot be sent fails with a fault that is none of
the transport. -/
lemma exists_pauses_eq (s : IdentityService) (hretry : s.retry.Valid) (ch : Web.Channel σ)
    (c : Credentials) (w : Web.Wire σ) :
    (s.authenticate ch c w).2.pauses = w.pauses ∨
      ∃ (req : Web.Request) (n : ℕ), n < s.retry.attempts ∧
        (s.authenticate ch c w).2.pauses = (Backoff.retried ch s.retry req w n).pauses ∧
        (n ≠ 0 → Web.isPlain req.address.host = true) ∧
        (s.authenticate ch c w).2.requests =
          (Web.sent ch req (Backoff.retried ch s.retry req w n)).requests := by
  cases hbody : s.requestBody c with
  | error f =>
    left
    unfold authenticate
    rw [hbody]
    rfl
  | ok body =>
    cases hjoin : s.address.join s.path with
    | error flaw =>
      left
      unfold authenticate
      rw [Flow.ofExcept_bind_of_ok hbody, hjoin]
      rfl
    | ok address =>
      have hattempts := hretry.attempts
      obtain ⟨n, hn, hlost, -, hpost⟩ :=
        Backoff.exists_postFrom_eq ch s.retry ⟨address, body⟩ w (s.retry.attempts.toNat - 1) 0
      simp only [Nat.zero_add] at hlost hpost
      obtain ⟨hrequests, hpauses, -, -⟩ := authenticate_of_post hbody hjoin hpost
      refine .inr ⟨⟨address, body⟩, n, by omega, hpauses.trans Web.sent_pauses, fun hne => ?_,
        hrequests⟩
      -- a host that cannot be sent is no loss of the transport
      by_contra hplain
      obtain ⟨f, hf, hkind⟩ := hlost 0 (Nat.pos_of_ne_zero hne)
      rw [Backoff.outcome, Web.answer, if_neg hplain] at hf
      obtain rfl := Except.error.inj hf
      exact absurd hkind (by decide)

/-- **The waits of an exchange.** There are fewer of them than attempts are allowed, and there is
one request more than waits. No wait is longer than the longest one. A wait is at least as long as
the first one would be if it had doubled with each lost request after the first, and if no random
amount is added, it is just as long, whatever the multiplier of the settings is. So it is the wait
that is due if waits grow by the multiplier only if it is the first one, if the multiplier is two,
or if both are too long. Where doubling has left the range of doubles, each wait is the longest one.

**Proof sketch.** The waits are those of the pauses, one by one. A wait is a product with a power of
two, which is exact, and a sum with an amount that is not negative, which is at least what was added
to; both are cut down to the longest wait. -/
theorem authenticate_waits (s : IdentityService) {v : Value}
    (hread : Config.RetrySettings.read v = .ok s.retry) (hfinite : s.retry.IsFinite)
    (hdraw : s.retry.jitter = true → ∀ line, 0 ≤ (ch.draw s.retry.multiplier line).1)
    (c : Credentials) (w : Web.Wire σ) :
    ∃ waits : List Float, (s.authenticate ch c w).2.pauses = w.pauses ++ waits ∧
      waits.length < s.retry.attempts ∧
      (waits ≠ [] → ∃ req, (s.authenticate ch c w).2.requests =
        w.requests ++ List.replicate (waits.length + 1) req) ∧
      ∀ k x, waits[k]? = some x →
        value x ≤ value s.retry.maxWait ∧
        (1024 ≤ k → value x = value s.retry.maxWait) ∧
        (k < 1024 → s.retry.due 2 k ≤ value x ∧
          (s.retry.jitter = false → value x = s.retry.due 2 k ∧
            (value x = s.retry.due (value s.retry.multiplier) k ↔
              k = 0 ∨ value s.retry.multiplier = 2 ∨
                value s.retry.maxWait ≤ value s.retry.initialWait * 2 ^ k ∧
                value s.retry.maxWait ≤
                  value s.retry.initialWait * value s.retry.multiplier ^ k))) := by
  have hretry : s.retry.Valid := Config.RetrySettings.valid_of_read hread
  have hinitial := (denotes_value hretry.initialWait hfinite.initialWait).pos
  have hmultiplier : 0 < value s.retry.multiplier :=
    (denotes_value (lt_of_lt_of_le (by decide) hretry.multiplier) hfinite.multiplier).pos
  rcases s.exists_pauses_eq hretry ch c w with hnone | ⟨req, n, hn, hpauses, hplain, hrequests⟩
  · refine ⟨[], by simpa using hnone, ?_, by simp, by simp⟩
    have hattempts := hretry.attempts
    simp only [List.length_nil]
    omega
  · obtain ⟨waits, rfl, hwaits, hretried, hsent⟩ :=
      Backoff.exists_isWait_retried hretry hdraw req w n
    refine ⟨waits, hpauses.trans hretried, hn, fun hne => ⟨req, ?_⟩, fun k x hx => ?_⟩
    · have hhost := hplain (by simpa using hne)
      rw [hrequests, Web.sent_requests, hsent, if_pos hhost, if_pos hhost, List.append_assoc,
        List.replicate_succ']
    · obtain ⟨hmost, hlong, hdue⟩ := (hwaits k x hx).value_mem hretry hfinite
      refine ⟨hmost, hlong, fun hk => ⟨(hdue hk).1, fun hjitter => ?_⟩⟩
      have hvalue := (hdue hk).2 hjitter
      refine ⟨hvalue, ?_⟩
      rw [hvalue, Config.RetrySettings.due_eq_due_iff hinitial two_pos.le hmultiplier.le,
        eq_comm (a := (2 : ℚ))]

/-- A service whose settings ask for waits that triple. -/
def tripling (jitter : Bool) : IdentityService where
  version := .v2
  endpoint := "http://identity"
  address := ⟨"http", "", "identity", none, "", none, none⟩
  retry := { attempts := 4, multiplier := 3, jitter }

/-- A channel that loses every request, and draws the largest amount. -/
def dead : Web.Channel Unit where
  send _ line := (.error (.ofKind .connect (some "down")), line)
  draw bound line := (bound, line)

/-- An exchange with this service over this channel. -/
def lost (jitter : Bool) : Ending (Token Float) × Web.Wire Unit :=
  (tripling jitter).authenticate dead ⟨"guest", "secret", .password⟩ { line := () }

/-- The settings of this service as they are given. -/
def triplingDocument (jitter : Bool) : Value :=
  .record [("max_attempts", .int 4), ("multiplier", .float 3), ("jitter", .bool jitter)]

/-- With random amounts there are three waits, each of which is long enough for one that has
doubled.

**Proof sketch.** The theorem is applied to this exchange, whose waits are computed. -/
theorem authenticate_waits_tripling :
    Config.RetrySettings.read (triplingDocument true) = .ok (tripling true).retry ∧
      (tripling true).retry.IsFinite ∧
      (∀ line, 0 ≤ (dead.draw (tripling true).retry.multiplier line).1) ∧
      (lost true).2.pauses = [4, 5, 7] ∧
      ∀ k x, ([4, 5, 7] : List Float)[k]? = some x →
        (tripling true).retry.due 2 k ≤ value x ∧
          value x ≤ value (tripling true).retry.maxWait := by
  have hread : Config.RetrySettings.read (triplingDocument true) = .ok (tripling true).retry := rfl
  have hfinite : (tripling true).retry.IsFinite := ⟨by decide, by decide, by decide⟩
  have hdraw (line : Unit) : 0 ≤ (dead.draw (tripling true).retry.multiplier line).1 :=
    (by decide : (0 : Float) ≤ 3)
  have hlost : (lost true).2.pauses = [4, 5, 7] := by decide +kernel
  refine ⟨hread, hfinite, hdraw, hlost, ?_⟩
  obtain ⟨waits, hpauses, -, -, hwaits⟩ := authenticate_waits (tripling true) hread hfinite
    (fun _ => hdraw) ⟨"guest", "secret", .password⟩ { line := () }
  rw [← lost, hlost, List.nil_append] at hpauses
  subst hpauses
  intro k x hx
  obtain ⟨hk, -⟩ := List.getElem?_eq_some_iff.1 hx
  obtain ⟨hmost, -, hdue⟩ := hwaits k x hx
  exact ⟨(hdue (hk.trans (by decide))).1, hmost⟩

/-- **Waits do not triple** for settings that ask for it: without random amounts they are one, two
and four seconds, where one, three and nine seconds would be due.

**Proof sketch.** The waits of this exchange, and those that would be due, are computed. -/
theorem lost_doubles :
    Config.RetrySettings.read (triplingDocument false) = .ok (tripling false).retry ∧
      (tripling false).retry.IsFinite ∧
      (tripling false).retry.jitter = false ∧ (lost false).2.pauses = [1, 2, 4] ∧
      ([1, 2, 4] : List Float).map value = [1, 2, 4] ∧
      (List.range 3).map ((tripling false).retry.due (value (tripling false).retry.multiplier)) =
        [1, 3, 9] := by
  have hone : value 1 = 1 := by
    change amount (2 ^ 52) (-52) = 1
    norm_num [amount]
  have htwo : value 2 = 2 := by
    change amount (2 ^ 52) (-51) = 2
    norm_num [amount]
  have hfour : value 4 = 4 := by
    change amount (2 ^ 52) (-50) = 4
    norm_num [amount]
  have hmultiplier : value (tripling false).retry.multiplier = 3 := by
    change amount (3 * 2 ^ 51) (-51) = 3
    norm_num [amount]
  have hinitial : value (tripling false).retry.initialWait = 1 := hone
  have hmost : value (tripling false).retry.maxWait = 60 := by
    change amount (15 * 2 ^ 49) (-47) = 60
    norm_num [amount]
  refine ⟨rfl, ⟨by decide, by decide, by decide⟩, rfl, by decide +kernel, ?_, ?_⟩
  · simp only [List.map_cons, List.map_nil, hone, htwo, hfour]
  · simp only [List.range_succ, List.range_zero, List.nil_append, List.cons_append, List.map_cons,
      List.map_nil, Config.RetrySettings.due, hmultiplier, hinitial, hmost]
    norm_num

end IdentityService

end NodeKeeper
