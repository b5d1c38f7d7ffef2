import NodeKeeper.Naming
import NodeKeeper.Provider.Region
import NodeKeeper.Session.Basic
import NodeKeeper.Value.Access

/-!
# Key pairs

The nodes of a group share a key pair, which is kept in a cache under the region and the shared name
of the group. A key pair can also be created on request; it then takes the place of the one that is
kept.

## Main definitions

* `KeyPairs` — the region, the naming convention, and how key pairs are created.
* `KeyPairs.placeOf`, `KeyPairs.keyFor` — the place of a group's key pair, and its cache key.
* `KeyPairs.client` — the callers that create key pairs or get them.
-/

namespace NodeKeeper

/-- Where key pairs belong, how they are named, and how they are created. -/
structure KeyPairs (σ τ : Type) where
  region : String
  naming : Naming := {}
  /-- Draws the suffix of a name. -/
  suffix : σ → String × σ
  /-- Creates a key pair of a name. -/
  create : String → σ → Response CacheKey Value τ Value × σ

namespace KeyPairs

/-- What a caller wants. -/
inductive Request where
  | create (group : String)
  | get (group : String)
deriving Repr, DecidableEq

/-- A key pair that is to be created. -/
structure Order where
  group : String
  name : String
deriving Repr, DecidableEq

variable {σ τ : Type}

/-- The cache, the clock and the log, and what creates key pairs. It is a cache of secondary
resources, so that the teardown of a node can use it too. -/
abbrev Stage (σ τ : Type) : Type := NodeKeeper.Stage σ CacheKey Value τ

/-- The region and the shared name of a group. -/
def placeOf (P : KeyPairs σ τ) (group : String) : RegionAndName :=
  ⟨P.region, P.naming.sharedName group⟩

/-- The cache key of a group. -/
def keyFor (P : KeyPairs σ τ) (group : String) : CacheKey := .place (P.placeOf group)

/-- A new key pair for a group, under a name of its own. -/
def order (P : KeyPairs σ τ) (group : String) (st : Stage σ τ) : Order × Stage σ τ :=
  let (suffix, rest) := P.suffix st.rest
  (⟨group, P.naming.nameFor group suffix⟩, { st with rest })

/-- What the creation of a key pair gave. It has to be a record. -/
def conclude (P : KeyPairs σ τ) (job : Order) (r : Outcome Value) (st : Stage σ τ) :
    Outcome Value × Stage σ τ :=
  match r with
  | .error f => (.error f, st)
  | .ok pair =>
    match pair.get "name" with
    | .error f => (.error f, st)
    | .ok name =>
      (.ok pair, st.record ⟨.info, "keypair.created",
        [("region", .text P.region), ("group", .text job.group), ("name", name)]⟩)

/-- A key pair that was created on request is kept. -/
def settle (P : KeyPairs σ τ) (request : Request) (r : Outcome Value) (st : Stage σ τ) :
    Outcome Value × Stage σ τ :=
  match request, r with
  | .create group, .ok pair => (.ok pair, st.put (P.keyFor group) pair)
  | _, r => (r, st)

variable [Add τ] [LE τ] [DecidableLE τ]

/-- Creates a key pair, or gets the one that is kept. -/
def begin (P : KeyPairs σ τ) (request : Request) (st : Stage σ τ) :
    Turn Value Request Order × Stage σ τ :=
  match request with
  | .create group =>
    let (job, st) := P.order group st
    (.errand job request, st)
  | .get group =>
    match st.request (P.keyFor group) true with
    | (.hit pair, st) => (.done (.ok pair), st)
    | (.joined l, st) => (.wait l none request, st)
    | (.started l, st) =>
      let (job, st) := P.order group st
      (.wait l (some job) request, st)
    | (.noLoader, st) => (.done (.error (st.cache.noLoaderFault (P.keyFor group))), st)

/-- Callers that create key pairs or get them. -/
def client (P : KeyPairs σ τ) : Client σ CacheKey Value τ Value Request Order where
  start := P.begin
  resume _ r st := (.done r, st)
  call job st :=
    let (response, rest) := P.create job.name st.rest
    (response, { st with rest })
  conclude := P.conclude
  settle := P.settle

end KeyPairs

end NodeKeeper
