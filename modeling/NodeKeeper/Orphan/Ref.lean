import NodeKeeper.Value.Basic

/-!
# Secondary resources

A deleted node can leave firewall policies, firewall rules and key pairs behind. A reference names
one of them, and says which cache entry dies with it.

## Main definitions

* `RegionAndName` — the cache key of a resource that is named within a region.
* `CacheKey` — what a reference can name in a cache.
* `OrphanRef` — a reference to a secondary resource.
-/

namespace NodeKeeper

/-- A name within a region. -/
structure RegionAndName where
  region : String
  name : String
deriving DecidableEq, Repr, Inhabited

/-- A reference inside a message. -/
def RegionAndName.written (k : RegionAndName) : String :=
  s!"RegionAndName(region={Text.quoted k.region}, name={Text.quoted k.name})"

/-- A key of a cache that secondary resources are looked up in. -/
inductive CacheKey where
  | number (n : Int)
  | text (s : String)
  | place (k : RegionAndName)
deriving DecidableEq, Repr, Inhabited

namespace CacheKey

/-- A key inside a message. -/
def written : CacheKey → String
  | number n => toString n
  | text s => Text.quoted s
  | place k => k.written

/-- A key as running text. -/
def shown : CacheKey → String
  | text s => s
  | k => k.written

end CacheKey

/-- A secondary resource that belongs to a node by its name. The identifier and the name are as the
provider reports them; `cacheKey` is the cache entry to drop once the resource is gone. -/
structure OrphanRef where
  kind : String
  id : Value
  name : Value := .text ""
  cacheKey : Option CacheKey := none
deriving Inhabited

namespace OrphanRef

/-- A reference inside a message. -/
def written (r : OrphanRef) : String :=
  let key := (r.cacheKey.map CacheKey.written).getD Value.null.written
  s!"ResourceRef(kind={Text.quoted r.kind}, id={r.id.written}, " ++
    s!"name={r.name.written}, cache_key={key})"

/-- Two references name the same resource in the same way. -/
def agrees (r s : OrphanRef) : Bool :=
  r.kind == s.kind && r.id.agrees s.id && r.name.agrees s.name && r.cacheKey == s.cacheKey

end OrphanRef

end NodeKeeper
