import NodeKeeper.Config.Root

/-!
# Settings as documents

What was read from a document, defaults included, as a document again. Secrets are hidden.

## Main definitions

* `Timing.document`, `RetrySettings.document`, `IdentitySettings.document`,
  `CacheSettings.document`, `Settings.document` — the sections as documents.
-/

namespace NodeKeeper.Config

/-- A text that may be absent. -/
def textDocument (s : Option String) : Value := (s.map Value.text).getD .null

/-- A number that may be absent. -/
def numberDocument (x : Option Float) : Value := (x.map Value.float).getD .null

/-- A timing section, whose time to wait has a name of its own. -/
def Timing.document (timeoutName : String) (t : Timing) : Value :=
  .record [(timeoutName, .int t.timeout), ("poll_period_ms", .int t.period)]

/-- How often and how soon to try again. -/
def RetrySettings.document (r : RetrySettings) : Value :=
  .record [("max_attempts", .int r.attempts), ("initial_wait_seconds", .float r.initialWait),
    ("max_wait_seconds", .float r.maxWait), ("multiplier", .float r.multiplier),
    ("jitter", .bool r.jitter)]

/-- The identity service and the credentials, without the secret. -/
def IdentitySettings.document (s : IdentitySettings) : Value :=
  .record [("endpoint", .text s.endpoint), ("version", .text s.version.word),
    ("credential_type", .text s.kind.word), ("identity", .text s.identity),
    ("secret", .text (Credentials.maskedSecret s.secret)), ("tenant_name", textDocument s.tenant),
    ("project_name", textDocument s.project), ("domain_name", .text s.domain),
    ("timeout_seconds", .float s.timeout), ("retry", s.retry.document)]

/-- How long tokens and key pairs are kept. -/
def CacheSettings.document (s : CacheSettings) : Value :=
  .record [("token_ttl_seconds", .float s.tokenTtl),
    ("session_token_ttl_seconds", .float s.sessionTtl),
    ("key_pair_ttl_seconds", numberDocument s.keyPairTtl),
    ("token_expiry_margin_seconds", .float s.margin)]

/-- The whole configuration. -/
def Settings.document (s : Settings) : Value :=
  .record [("naming_prefix", .text s.namingLead),
    ("provision", s.provision.document "login_details_timeout_ms"),
    ("teardown", s.teardown.document "active_transactions_timeout_ms"),
    ("image", s.image.document "image_available_timeout_ms"), ("cache", s.cache.document),
    ("auth", (s.identity.map IdentitySettings.document).getD .null)]

end NodeKeeper.Config
