import NodeKeeper.Node.Stage

/-!
# Credentials and tokens

An identity and its secret are exchanged for a token. A token is opaque; it may say until when it
is valid.

## Main definitions

* `CredentialKind`, `IdentityVersion` — how credentials are presented, and to which interface.
* `Credentials` — an identity and its secret.
* `Credentials.shown` — credentials as running text, without the secret.
* `Token` — a token.
* `Token.expired` — a token is no longer valid, or will not be for much longer.
-/

namespace NodeKeeper

/-- How an identity and its secret are presented. -/
inductive CredentialKind where
  | password | accessKey
deriving DecidableEq, Repr, Inhabited

/-- The versions of the identity interface. -/
inductive IdentityVersion where
  | v2 | v3
deriving DecidableEq, Repr, Inhabited

namespace CredentialKind

/-- The word of a kind. -/
def word : CredentialKind → String
  | password => "password"
  | accessKey => "api_access_key"

/-- A kind inside a message. -/
def written : CredentialKind → String
  | password => "<CredentialType.PASSWORD: 'password'>"
  | accessKey => "<CredentialType.API_ACCESS_KEY: 'api_access_key'>"

end CredentialKind

/-- The word of a version. -/
def IdentityVersion.word : IdentityVersion → String
  | v2 => "v2"
  | v3 => "v3"

instance : Vocabulary CredentialKind where
  title := "CredentialType"
  members := [.password, .accessKey]
  word := CredentialKind.word

instance : Vocabulary IdentityVersion where
  title := "KeystoneVersion"
  members := [.v2, .v3]
  word := IdentityVersion.word

/-- An identity and its secret. Two of them are the same only if both parts and the kind are. -/
structure Credentials where
  identity : String
  secret : String
  kind : CredentialKind := .password
deriving DecidableEq, Repr, Inhabited

namespace Credentials

/-- A secret as running text: hidden, unless it is empty. -/
def maskedSecret (s : String) : String := if s = "" then "" else "**********"

/-- Credentials as running text. The secret does not show. -/
def shown (c : Credentials) : String :=
  s!"identity={Text.quoted c.identity} " ++
    s!"secret=SecretStr({Text.quoted (maskedSecret c.secret)}) credential_type={c.kind.written}"

end Credentials

/-- A token over instants `τ`; `validUntil` is an instant of the wall clock. -/
structure Token (τ : Type) where
  id : Value
  validUntil : Option τ := none
deriving Inhabited

namespace Token

variable {τ : Type}

/-- The token is not valid any more at `now`, or will not be `margin` later. A token that does not
say until when it is valid does not expire. -/
def expired [Sub τ] [LE τ] [DecidableLE τ] (t : Token τ) (now margin : τ) : Bool :=
  match t.validUntil with
  | none => false
  | some limit => limit - margin ≤ now

/-- A token inside a message, without its identifier. -/
def written (t : Token Float) : String :=
  s!"Token(valid_until={((t.validUntil.map Value.float).getD .null).written})"

end Token

end NodeKeeper
