import NodeKeeper.Config.Root
import NodeKeeper.Identity.Service
import NodeKeeper.Identity.Supplier

/-!
# Suppliers over the identity service

A supplier whose tokens come from the identity service of the settings.

## Main definitions

* `Config.CacheSettings.lifetime` — how long tokens of a version are kept.
* `Supplier.overService` — a supplier that asks the identity service.
* `Supplier.tokenCache` — the cache that such a supplier makes for itself.
-/

namespace NodeKeeper

/-- How long tokens of a version are kept. Those of version 3 are good for a whole session. -/
def Config.CacheSettings.lifetime (s : Config.CacheSettings) : IdentityVersion → Float
  | .v2 => s.tokenTtl
  | .v3 => s.sessionTtl

namespace Supplier

variable {σ : Type}

/-- Asks the identity service. The events that it reports are handed on. -/
def exchange (service : IdentityService) (ch : Web.Channel σ) (c : Credentials)
    (w : Web.Wire σ) :
    Response Credentials (Issued Float) Float (Grant Float) × List Log.Event × Web.Wire σ :=
  let (ending, after) := service.authenticate ch c w
  let outcome : Outcome (Grant Float) :=
    match ending with
    | .returned t => .ok (.token t)
    | .raised f => .error f
    | .unfinished => .error .cancellation
  (.now { outcome }, after.log.drop w.log.length, after)

/-- A supplier that asks the identity service. -/
def overService (service : IdentityService) (ch : Web.Channel σ) (s : Config.CacheSettings) :
    Supplier (Web.Wire σ) Float where
  authenticate := exchange service ch
  margin := s.margin
  logged := .float

/-- The cache that a supplier makes for itself. -/
def tokenCache (s : Config.CacheSettings) (version : IdentityVersion) :
    Except Fault (Cache Credentials (Issued Float) Float) :=
  Cache.make Decimal.text (some (s.lifetime version)) "tokens"

end Supplier

end NodeKeeper
