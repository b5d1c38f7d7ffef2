import NodeKeeper.Config.Section
import NodeKeeper.Identity.Credentials

/-!
# Settings of the identity service

Where the identity service is, which version of its interface it has, the credentials that are
presented to it, and how often a lost connection is tried again.

## Main definitions

* `RetrySettings` — how often and how soon to try again.
* `IdentitySettings` — the service and the credentials.
* `readCredentials` — credentials on their own.
-/

namespace NodeKeeper.Config

open Section Setting

/-- How often and how soon to try again; waits are in seconds. -/
structure RetrySettings where
  attempts : Int := 5
  initialWait : Float := 1.0
  maxWait : Float := 60.0
  multiplier : Float := 2.0
  jitter : Bool := true
deriving Inhabited

/-- How often and how soon to try again. -/
def RetrySettings.read (v : Value) : Checked RetrySettings :=
  match fields "RetryConfig" v with
  | .error ps => .error ps
  | .ok fs =>
    RetrySettings.mk <$> setting fs "max_attempts" (some 5) (integerAtLeast 1)
      <*> setting fs "initial_wait_seconds" (some 1.0) (numberAbove 0)
      <*> setting fs "max_wait_seconds" (some 60.0) (numberAbove 0)
      <*> setting fs "multiplier" (some 2.0) (numberAtLeast 1)
      <*> setting fs "jitter" (some true) truth

/-- The kinds of credentials by their words. -/
def credentialKind : Reading CredentialKind :=
  choice [("password", .password), ("api_access_key", .accessKey)] "'password' or 'api_access_key'"

/-- The versions of the interface by their words. -/
def identityVersion : Reading IdentityVersion := choice [("v2", .v2), ("v3", .v3)] "'v2' or 'v3'"

/-- The identity service and the credentials that are presented to it. -/
structure IdentitySettings where
  endpoint : String
  version : IdentityVersion := .v2
  kind : CredentialKind := .password
  identity : String
  secret : String
  tenant : Option String := none
  project : Option String := none
  domain : String := "Default"
  timeout : Float := 30.0
  retry : RetrySettings := {}
deriving Inhabited

namespace IdentitySettings

/-- The settings one by one. -/
def readEach (v : Value) : Checked IdentitySettings :=
  match fields "AuthConfig" v with
  | .error ps => .error ps
  | .ok fs =>
    IdentitySettings.mk <$> setting fs "endpoint" none text
      <*> setting fs "version" (some .v2) identityVersion
      <*> setting fs "credential_type" (some .password) credentialKind
      <*> setting fs "identity" none text
      <*> setting fs "secret" none text
      <*> setting fs "tenant_name" (some none) (optional text)
      <*> setting fs "project_name" (some none) (optional text)
      <*> setting fs "domain_name" (some "Default") text
      <*> setting fs "timeout_seconds" (some 30.0) (numberAbove 0)
      <*> part fs "retry" {} RetrySettings.read

/-- Version 3 does not take access keys. -/
def conflicts (s : IdentitySettings) : Bool := s.version == .v3 && s.kind == .accessKey

/-- What is said about access keys with version 3. -/
def conflictReason : String :=
  "credential_type 'api_access_key' is only supported with version 'v2'"

/-- The settings, which also have to go together. -/
def read (v : Value) : Checked IdentitySettings :=
  match readEach v with
  | .error ps => .error ps
  | .ok s => if s.conflicts then .error [⟨[], .conflict conflictReason⟩] else .ok s

/-- The credentials that are presented to the service. -/
def credentials (s : IdentitySettings) : Credentials := ⟨s.identity, s.secret, s.kind⟩

end IdentitySettings

/-- Credentials on their own. -/
def readCredentials (v : Value) : Checked Credentials :=
  match fields "Credentials" v with
  | .error ps => .error ps
  | .ok fs =>
    Credentials.mk <$> setting fs "identity" none text
      <*> setting fs "secret" none text
      <*> setting fs "credential_type" (some .password) credentialKind

end NodeKeeper.Config
