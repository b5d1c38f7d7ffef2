import NodeKeeper.Cache.Basic

/-!
# A cache in use

Those who use a cache share more than the cache: a clock, a log, and the rest of their world. The
operations of the cache at the current instant, each with the events that it reports.

## Main definitions

* `Stage` — a clock, a cache, a log, and the rest.
* `Stage.lookup`, `Stage.contains`, `Stage.keys`, `Stage.size` — what is visible now.
* `Stage.put`, `Stage.invalidate`, `Stage.invalidateAll` — changes from outside.
* `Stage.request`, `Stage.finish` — asking for a key, and the end of a load.
* `Edit`, `Stage.apply` — what can be done to a cache at once.
-/

namespace NodeKeeper

/-- A clock, a cache, a log, and the rest of the world of those who use the cache. -/
structure Stage (σ κ ν τ : Type) where
  now : τ
  cache : Cache κ ν τ
  log : List Log.Event := []
  rest : σ

/-- What can be done to a cache at once. -/
inductive Edit (κ ν : Type) where
  | put (k : κ) (v : ν)
  | invalidate (k : κ)
  | invalidateAll
  | lookup (k : κ)
  | keys
deriving Repr

namespace Stage

variable {σ κ ν τ : Type}

/-- Adds an event to the log. -/
def record (st : Stage σ κ ν τ) (e : Log.Event) : Stage σ κ ν τ := { st with log := st.log ++ [e] }

/-- Adds an event to the log if there is reason to. -/
def recordIf (st : Stage σ κ ν τ) (b : Bool) (e : Log.Event) : Stage σ κ ν τ :=
  if b then st.record e else st

/-- Lets time pass. -/
def advance [Add τ] (st : Stage σ κ ν τ) (s : τ) : Stage σ κ ν τ := { st with now := st.now + s }

section Lifetime

variable [Add τ] [LE τ] [DecidableLE τ]

/-- All visible keys. -/
def keys (st : Stage σ κ ν τ) : List κ × Stage σ κ ν τ :=
  let (ks, cache) := st.cache.keys st.now
  (ks, { st with cache })

/-- How many keys are visible. -/
def size (st : Stage σ κ ν τ) : Nat × Stage σ κ ν τ :=
  let (ks, st) := st.keys
  (ks.length, st)

variable [DecidableEq κ]

/-- The value of a key, if it is visible. -/
def lookup (st : Stage σ κ ν τ) (k : κ) : Option ν × Stage σ κ ν τ :=
  let (v, cache) := st.cache.lookup st.now k
  (v, { st with cache })

/-- Whether a key is visible. -/
def contains (st : Stage σ κ ν τ) (k : κ) : Bool × Stage σ κ ν τ :=
  let (v, st) := st.lookup k
  (v.isSome, st)

/-- Asks for a key. -/
def request (st : Stage σ κ ν τ) (k : κ) (canLoad : Bool) :
    Cache.Access ν × Stage σ κ ν τ :=
  let (access, cache) := st.cache.request st.now k canLoad
  (access, { st with cache })

end Lifetime

variable [DecidableEq κ]

/-- Installs a value. -/
def put (st : Stage σ κ ν τ) (k : κ) (v : ν) : Stage σ κ ν τ :=
  { st with cache := st.cache.put st.now k v }

/-- Drops all keys. -/
def invalidateAll (st : Stage σ κ ν τ) : Stage σ κ ν τ :=
  { st with cache := st.cache.invalidateAll }

variable [Keylike κ]

/-- Drops a key. -/
def invalidate (st : Stage σ κ ν τ) (k : κ) : Stage σ κ ν τ :=
  let (present, cache) := st.cache.invalidate k
  { st with cache }.recordIf present (st.cache.invalidatedEvent k)

/-- The end of a load, with its outcome. -/
def finish (st : Stage σ κ ν τ) (l : Cache.Load κ) (outcome : Except Fault ν) : Stage σ κ ν τ :=
  match outcome with
  | .ok v =>
    let (installed, cache) := st.cache.finish st.now l (some v)
    { st with cache }.recordIf installed (st.cache.loadedEvent l.key)
  | .error f =>
    let (_, cache) := st.cache.finish st.now l none
    { st with cache }.record (st.cache.loadFailedEvent l.key f)

/-- Does something to the cache at once. -/
def apply [Add τ] [LE τ] [DecidableLE τ] (st : Stage σ κ ν τ) : Edit κ ν → Stage σ κ ν τ
  | .put k v => st.put k v
  | .invalidate k => st.invalidate k
  | .invalidateAll => st.invalidateAll
  | .lookup k => (st.lookup k).2
  | .keys => st.keys.2

end Stage

end NodeKeeper
