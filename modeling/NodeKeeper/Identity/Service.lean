import NodeKeeper.Identity.Backoff
import NodeKeeper.Identity.Expiry
import NodeKeeper.Value.Access

/-!
# The identity service

Credentials are posted to the identity service, which answers with a token. The two versions of its
interface differ in the address, in what is posted, and in where the token stands in the answer.

## Main definitions

* `Tenancy` — the part of the service that the credentials belong to.
* `IdentityService` — where the service is, and what is posted to it.
* `IdentityService.requestBody`, `IdentityService.tokenOf` — what is posted, and the token in the
  answer.
* `IdentityService.authenticate` — the exchange of credentials for a token.
-/

namespace NodeKeeper

/-- The version of a word that has not been checked. -/
def IdentityVersion.named (word : Value) : Except Fault IdentityVersion :=
  if word.agrees (.text "v3") then .ok .v3
  else if word.agrees (.text "v2") then .ok .v2
  else .error (.badValue s!"Unsupported identity version: {word.shown}")

/--
The part of the service that the credentials belong to. Its names are posted as they are given: a
tenant and a project are left out if they are empty, and a domain never is.
-/
structure Tenancy where
  tenant : Value := .null
  project : Value := .null
  domain : Value := .text "Default"
deriving Inhabited

/-- The tenancy that the settings name. -/
def Tenancy.ofSettings (s : Config.IdentitySettings) : Tenancy :=
  let document := fun (t : Option String) => (t.map Value.text).getD .null
  ⟨document s.tenant, document s.project, .text s.domain⟩

/--
A tenancy by its parts, of which each version knows its own. The time that an answer may take can
be named among them, and is no part of it.
-/
def Tenancy.ofFields (version : IdentityVersion) (fields : List (String × Value)) :
    Except Fault Tenancy :=
  fields.foldlM (fun s (name, v) =>
    match version, name with
    | .v2, "tenant_name" => .ok { s with tenant := v }
    | .v3, "project_name" => .ok { s with project := v }
    | .v3, "domain_name" => .ok { s with domain := v }
    | _, "timeout_seconds" => .ok s
    | _, _ => .error (.badType s!"version {version.word} has no part {name}")) {}

/-- Where the identity service is, and what is posted to it besides the credentials. -/
structure IdentityService where
  version : IdentityVersion
  /-- The address as it was given, without slashes at its end. -/
  endpoint : String
  address : Address
  tenancy : Tenancy := {}
  retry : Config.RetrySettings := {}
  /-- The zone of those who ask, in which instants without an offset are meant. -/
  zone : Expiry.Zone := .universal

namespace IdentityService

/-- Drops the slashes at the end of an address. -/
def dropSlashes (s : String) : String :=
  String.ofList (s.toList.reverse.dropWhile (· == '/')).reverse

/-- An address that is not valid is a fault. -/
def orBadAddress {α : Type} (r : Except Address.Flaw α) : Except Fault α :=
  r.mapError fun flaw => .misfit .badAddress flaw.message

/-- The service at an address, which has to be valid. -/
def atAddress (version : IdentityVersion) (text : String) (tenancy : Tenancy)
    (retry : Config.RetrySettings) (zone : Expiry.Zone := .universal) :
    Except Fault IdentityService := do
  let endpoint := dropSlashes text
  let address ← orBadAddress (do (← Address.parse endpoint).close)
  return ⟨version, endpoint, address, tenancy, retry, zone⟩

/-- The service of the settings. -/
def ofSettings (s : Config.IdentitySettings) (zone : Expiry.Zone := .universal) :
    Except Fault IdentityService :=
  atAddress s.version s.endpoint (.ofSettings s) s.retry zone

/-- What stands behind the address of the service. -/
def path (s : IdentityService) : String :=
  match s.version with
  | .v2 => "/tokens"
  | .v3 => "/auth/tokens"

/-! ## What is posted -/

/-- A field of a record, which is left out if it is empty. -/
def fieldUnlessEmpty (name : String) (v : Value) : List (String × Value) :=
  if v.isTruthy then [(name, v)] else []

/-- Credentials for version 2. -/
def plainBody (s : IdentityService) (c : Credentials) : Value :=
  let presented :=
    match c.kind with
    | .accessKey => ("apiAccessKeyCredentials",
        Value.record [("accessKey", .text c.identity), ("secretKey", .text c.secret)])
    | .password => ("passwordCredentials",
        Value.record [("username", .text c.identity), ("password", .text c.secret)])
  .record [("auth", .record (presented :: fieldUnlessEmpty "tenantName" s.tenancy.tenant))]

/-- The domain of users and projects. -/
def domainField (s : IdentityService) : String × Value :=
  ("domain", .record [("name", s.tenancy.domain)])

/-- The project that a token is asked for, if there is one. -/
def scopeField (s : IdentityService) : List (String × Value) :=
  match fieldUnlessEmpty "name" s.tenancy.project with
  | [] => []
  | name => [("scope", .record [("project", .record (name ++ [s.domainField]))])]

/-- Credentials for version 3, which takes no access keys. -/
def scopedBody (s : IdentityService) (c : Credentials) : Except Fault Value :=
  match c.kind with
  | .accessKey =>
    .error (.badValue s!"Keystone v3 does not accept {c.kind.word} credentials")
  | .password =>
    let user := Value.record
      [("name", .text c.identity), s.domainField, ("password", .text c.secret)]
    let identity := Value.record
      [("methods", .list [.text "password"]), ("password", .record [("user", user)])]
    .ok (.record [("auth", .record (("identity", identity) :: s.scopeField))])

/-- What is posted for credentials. -/
def requestBody (s : IdentityService) (c : Credentials) : Except Fault Value :=
  match s.version with
  | .v2 => .ok (s.plainBody c)
  | .v3 => s.scopedBody c

/-! ## What comes back -/

/-- The instant that a text denotes, if there is one. -/
def expiry (v : Value) (zone : Expiry.Zone := .universal) : Except Fault (Option Float) :=
  if !v.isTruthy then .ok none
  else
    match v with
    | .text s => (Expiry.ofText zone s).map some
    | _ => .error (.badType "fromisoformat: argument must be str")

/-- The header that holds a token of version 3. -/
def tokenHeader : String := "X-Subject-Token"

/-- The token of version 2, which is a part of the document. -/
def documentToken (s : IdentityService) (r : Web.Response) : Except Fault (Token Float) := do
  let token ← (← (← r.document).index "access").index "token"
  let id ← token.index "id"
  return ⟨id, ← expiry (← token.get "expires") s.zone⟩

/-- The token of version 3, which is a header; the document says until when it is valid. -/
def headerToken (s : IdentityService) (r : Web.Response) : Except Fault (Token Float) := do
  let id := (r.header? tokenHeader).getD ""
  if id = "" then
    throw (.lifecycle .authenticationFailed
      s!"Identity service at {s.endpoint} returned no {tokenHeader}" {})
  let token ←
    match ← r.document with
    | .record fields => .ok ((fields.lookup "token").getD (.record []))
    | v => v.get "token"
  return ⟨.text id, ← expiry (← token.get "expires_at") s.zone⟩

/-- The token in an answer that reports success. -/
def tokenOf (s : IdentityService) (r : Web.Response) : Except Fault (Token Float) :=
  match s.version with
  | .v2 => s.documentToken r
  | .v3 => s.headerToken r

/-- The token in an answer. The service may have rejected the credentials or have failed. -/
def judge (s : IdentityService) (c : Credentials) (r : Web.Response) :
    Except Fault (Token Float) :=
  if r.isRejection then
    .error (.lifecycle .authenticationFailed
      (s!"Identity service at {s.endpoint} rejected credentials for {c.identity}: " ++
        toString r.status) {})
  else if !r.isSuccess then .error (.badStatus r.status)
  else s.tokenOf r

/-- Exchanges credentials for a token. -/
def authenticate {σ : Type} (s : IdentityService) (ch : Web.Channel σ) (c : Credentials) :
    Flow (Web.Wire σ) (Token Float) := do
  let body ← Flow.ofExcept (s.requestBody c)
  let address ← Flow.ofExcept (orBadAddress (s.address.join s.path))
  let response ← Backoff.post ch s.retry ⟨address, body⟩
  let token ← Flow.ofExcept (s.judge c response)
  Web.note ⟨.info, "keystone.authenticated",
    [("endpoint", .text s.endpoint), ("identity", .text c.identity)]⟩
  return token

end IdentityService

end NodeKeeper
