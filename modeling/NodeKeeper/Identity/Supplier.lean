import NodeKeeper.Identity.Credentials
import NodeKeeper.Session.Basic

/-!
# Token suppliers

A supplier hands out the token of the credentials that are active. Tokens are kept in a cache under
their credentials, so that a new one is asked for only when there is none. A token whose own
lifetime is about to end is dropped by the first caller that sees it, and asked for again; what
comes then is handed out as it is.

## Main definitions

* `Grant` — what an authenticator grants: a token, or a bare session identifier.
* `Supplier` — how tokens are asked for, and how long before its end a token counts as expired.
* `Supplier.client` — the callers that ask for the current token.

## Implementation notes

Whether a caller sees the very token that the cache holds is a question of identity and not of
contents; every token that is granted or put gets a serial number of its own.
-/

namespace NodeKeeper

instance : Keylike Credentials := ⟨Credentials.shown, fun c => s!"Credentials({c.shown})"⟩

/-- What an authenticator grants: a token, or a bare session identifier. -/
inductive Grant (τ : Type) where
  | token (t : Token τ)
  | session (id : String)

/-- The token of a grant; a bare identifier does not say until when it is valid. -/
def Grant.toToken {τ : Type} : Grant τ → Token τ
  | token t => t
  | session id => ⟨.text id, none⟩

/-- A token with its serial number. -/
structure Issued (τ : Type) where
  token : Token τ
  serial : Nat

/-- How tokens are asked for, and how long before its end a token counts as expired. -/
structure Supplier (σ τ : Type) where
  /-- Asks the authenticator, which may report events of its own. -/
  authenticate : Credentials → σ →
    Response Credentials (Issued τ) τ (Grant τ) × List Log.Event × σ
  margin : τ
  /-- An instant in the log. -/
  logged : τ → Value

/-- The world of a supplier: the active credentials, the wall clock, and the authenticator. -/
structure Supplier.World (σ τ : Type) where
  active : Credentials
  wall : τ
  nextSerial : Nat := 0
  service : σ

namespace Supplier

/-- Where a caller is: about to look at the active credentials, or waiting for the first or the
second load of a token. -/
inductive Phase where
  | opening
  | first (c : Credentials)
  | second
deriving Repr

variable {σ τ : Type}

/-- The cache, the clock and the log of a supplier, and its world. -/
abbrev Stage (σ τ : Type) : Type := NodeKeeper.Stage (World σ τ) Credentials (Issued τ) τ

/-- Gives a token a serial number of its own. -/
def stamp (t : Token τ) (st : Stage σ τ) : Issued τ × Stage σ τ :=
  let n := st.rest.nextSerial
  (⟨t, n⟩, { st with rest := { st.rest with nextSerial := n + 1 } })

/-- No token at all was granted. -/
def emptyFault (c : Credentials) : Fault :=
  .lifecycle .authenticationFailed
    s!"Identity service returned an empty token for {c.identity}" {}

section Turns

variable [Add τ] [Sub τ] [LE τ] [DecidableLE τ]

/-- Drops the token of some credentials, if it is the one that was seen to be expired. -/
def dropExpired (c : Credentials) (seen : Issued τ) (st : Stage σ τ) : Stage σ τ :=
  match st.lookup c with
  | (some held, st) =>
    if held.serial = seen.serial then
      (st.record ⟨.info, "token.expired_before_ttl",
        [("identity", .text c.identity)]⟩).invalidate c
    else st
  | (none, st) => st

/-- Asks for the token a second time. -/
def askAgain (c : Credentials) (st : Stage σ τ) :
    Turn (Issued τ) Phase Credentials × Stage σ τ :=
  match st.request c true with
  | (.hit t, st) => (.done (.ok t), st)
  | (.joined l, st) => (.wait l none .second, st)
  | (.started l, st) => (.wait l (some c) .second, st)
  | (.noLoader, st) => (.done (.error (st.cache.noLoaderFault c)), st)

/-- Looks at the token that was asked for first. -/
def inspect (S : Supplier σ τ) (c : Credentials) (t : Issued τ) (st : Stage σ τ) :
    Turn (Issued τ) Phase Credentials × Stage σ τ :=
  if t.token.expired st.rest.wall S.margin then askAgain c (dropExpired c t st)
  else (.done (.ok t), st)

/-- Asks for the token of the active credentials. -/
def begin (S : Supplier σ τ) (st : Stage σ τ) :
    Turn (Issued τ) Phase Credentials × Stage σ τ :=
  let c := st.rest.active
  match st.request c true with
  | (.hit t, st) => S.inspect c t st
  | (.joined l, st) => (.wait l none (.first c), st)
  | (.started l, st) => (.wait l (some c) (.first c), st)
  | (.noLoader, st) => (.done (.error (st.cache.noLoaderFault c)), st)

/-- A load of a token has ended. Only the first one is looked at. -/
def resume (S : Supplier σ τ) (phase : Phase) (r : Outcome (Issued τ)) (st : Stage σ τ) :
    Turn (Issued τ) Phase Credentials × Stage σ τ :=
  match phase, r with
  | .first c, .ok t => S.inspect c t st
  | _, r => (.done r, st)

/-- Asks the authenticator. -/
def call (S : Supplier σ τ) (c : Credentials) (st : Stage σ τ) :
    Response Credentials (Issued τ) τ (Grant τ) × Stage σ τ :=
  let st := st.record ⟨.debug, "token.authenticating", [("identity", .text c.identity)]⟩
  let (response, events, service) := S.authenticate c st.rest.service
  (response, { events.foldl Stage.record st with rest := { st.rest with service } })

/-- What was granted becomes a token, unless it is empty. -/
def conclude (S : Supplier σ τ) (c : Credentials) (r : Outcome (Grant τ)) (st : Stage σ τ) :
    Outcome (Issued τ) × Stage σ τ :=
  match r with
  | .error f => (.error f, st)
  | .ok grant =>
    let t := grant.toToken
    if !t.id.isTruthy then (.error (emptyFault c), st)
    else
      let (issued, st) := stamp t st
      (.ok issued, st.record ⟨.info, "token.issued", [("identity", .text c.identity),
        ("valid_until", (t.validUntil.map S.logged).getD .null)]⟩)

/-- Callers that ask for the current token. -/
def client (S : Supplier σ τ) :
    Client (World σ τ) Credentials (Issued τ) τ (Grant τ) Phase Credentials where
  start _ st := S.begin st
  resume := S.resume
  call := S.call
  conclude := S.conclude
  settle _ r st := (r, st)

end Turns

/-- Forgets the token of the active credentials. -/
def forget (st : Stage σ τ) : Stage σ τ := st.invalidate st.rest.active

end Supplier

end NodeKeeper
