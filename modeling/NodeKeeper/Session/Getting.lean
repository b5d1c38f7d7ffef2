import NodeKeeper.Session.Basic

/-!
# Getting keys

The plainest use of a cache: callers ask for keys. A key that is not visible is loaded by the loader
that its caller brought along, or by the one that the cache was given.

## Main definitions

* `Getting.Request` — a caller's key, and the loader that it brings.
* `Getting.Loaders` — what the loaders do.
* `Getting.client` — the callers.
-/

namespace NodeKeeper.Getting

/-- The key that a caller asks for, and its own loader, if it brings one. -/
structure Request (κ ℓ : Type) where
  key : κ
  own : Option ℓ := none

/-- What the loaders do, with states in `σ`. -/
structure Loaders (σ κ ν τ ℓ : Type) where
  /-- Whether the cache was given a loader. -/
  hasDefault : Bool
  load : Request κ ℓ → σ → Response κ ν τ ν × σ

variable {σ κ ν τ ℓ : Type}

/-- Someone can load the key of a request. -/
def Loaders.canLoad (L : Loaders σ κ ν τ ℓ) (r : Request κ ℓ) : Bool :=
  r.own.isSome || L.hasDefault

variable [Add τ] [LE τ] [DecidableLE τ] [DecidableEq κ] [Keylike κ]

/-- A caller asks for its key, and waits for a load if it has to. -/
def begin (L : Loaders σ κ ν τ ℓ) (r : Request κ ℓ) (st : Stage σ κ ν τ) :
    Turn ν (Request κ ℓ) (Request κ ℓ) × Stage σ κ ν τ :=
  match st.request r.key (L.canLoad r) with
  | (.hit v, st) => (.done (.ok v), st)
  | (.joined l, st) => (.wait l none r, st)
  | (.started l, st) => (.wait l (some r) r, st)
  | (.noLoader, st) => (.done (.error (st.cache.noLoaderFault r.key)), st)

/-- Callers that ask for keys. -/
def client (L : Loaders σ κ ν τ ℓ) : Client σ κ ν τ ν (Request κ ℓ) (Request κ ℓ) where
  start := begin L
  resume _ r st := (.done r, st)
  call job st :=
    let (response, rest) := L.load job st.rest
    (response, { st with rest })
  conclude _ r st := (r, st)
  settle _ r st := (r, st)

end NodeKeeper.Getting
