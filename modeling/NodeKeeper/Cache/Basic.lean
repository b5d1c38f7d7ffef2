import NodeKeeper.Fault.Basic
import NodeKeeper.Log

/-!
# Keyed caches

A cache keeps what was looked up by a key, for a limited time or until it is dropped. A missing key
is looked up by a load, and all who ask for the key while its load is on the way share that load.
Putting or dropping a key in the meantime supersedes the load: it still answers those who wait for
it, but it no longer installs its value.

## Main definitions

* `Cache` — a cache over keys `κ`, values `ν` and instants `τ`.
* `Cache.lookup`, `Cache.keys` — what is visible at an instant.
* `Cache.put`, `Cache.invalidate`, `Cache.invalidateAll` — changes from outside.
* `Cache.request` — asking for a key: a hit, or a load to wait for.
* `Cache.finish` — the end of a load.

## Implementation notes

Every operation gets the reading of the clock. Reading a key removes its entry if it has expired.
The generation of a key counts how often its loads were superseded; a load remembers the generation
it was started in and installs its value only if that is still the current one. Entries keep the
order in which their keys were first installed.
-/

namespace NodeKeeper

namespace Cache

/-- A value and the instant when it was installed. -/
structure Entry (κ ν τ : Type) where
  key : κ
  value : ν
  installed : τ
deriving Repr

/-- A load that has been started and has not finished. -/
structure Load (κ : Type) where
  id : Nat
  key : κ
  generation : Nat
deriving Repr, DecidableEq

end Cache

/-- A cache over keys `κ`, values `ν` and instants `τ`. -/
structure Cache (κ ν τ : Type) where
  /-- How long an entry lives; without it, until it is dropped. -/
  ttl : Option τ := none
  name : String := "cache"
  entries : List (Cache.Entry κ ν τ) := []
  /-- The load that those who ask for a key now will share. -/
  inFlight : List (κ × Nat) := []
  /-- How often the loads of a key were superseded. -/
  generation : κ → Nat := fun _ => 0
  /-- All loads that have not finished, superseded ones included. -/
  loads : List (Cache.Load κ) := []
  /-- The number of the next load. -/
  nextLoad : Nat := 0

/-- A type whose members are shown as running text and written inside messages. -/
class Keylike (κ : Type) where
  shown : κ → String
  written : κ → String

instance : Keylike CacheKey := ⟨CacheKey.shown, CacheKey.written⟩

instance {κ : Type} [Keylike κ] : Keylike (Option κ) where
  shown k := (k.map Keylike.shown).getD Value.null.shown
  written k := (k.map Keylike.written).getD Value.null.written

namespace Cache

variable {κ ν τ : Type}

/-- A cache; a limited lifetime has to be positive. -/
def make [Zero τ] [LE τ] [DecidableLE τ] (written : τ → String) (ttl : Option τ) (name : String) :
    Except Fault (Cache κ ν τ) :=
  match ttl with
  | some t =>
    if t ≤ 0 then .error (.badValue s!"ttl must be positive or None, got {written t}")
    else .ok { ttl, name }
  | none => .ok { ttl, name }

/-! ## Entries -/

section Lifetime

variable [Add τ] [LE τ] [DecidableLE τ]

/-- The entry has not reached the end of its lifetime. -/
def isFresh (c : Cache κ ν τ) (now : τ) (e : Entry κ ν τ) : Bool :=
  match c.ttl with
  | none => true
  | some t => !decide (e.installed + t ≤ now)

/-- All keys that are visible; entries that have expired are removed. -/
def keys (c : Cache κ ν τ) (now : τ) : List κ × Cache κ ν τ :=
  let live := c.entries.filter (c.isFresh now)
  (live.map Entry.key, { c with entries := live })

end Lifetime

variable [DecidableEq κ]

/-- The entry of a key, expired or not. -/
def kept? (c : Cache κ ν τ) (k : κ) : Option (Entry κ ν τ) := c.entries.find? fun e => e.key = k

/-- Removes the entry of a key. -/
def dropEntry (c : Cache κ ν τ) (k : κ) : Cache κ ν τ :=
  { c with entries := c.entries.filter fun e => e.key ≠ k }

/-- Puts an entry in the place of the one with its key, or at the end. -/
def placeEntry (e : Entry κ ν τ) : List (Entry κ ν τ) → List (Entry κ ν τ)
  | [] => [e]
  | x :: rest => if x.key = e.key then e :: rest else x :: placeEntry e rest

/-- Installs a value. -/
def install (c : Cache κ ν τ) (now : τ) (k : κ) (v : ν) : Cache κ ν τ :=
  { c with entries := placeEntry ⟨k, v, now⟩ c.entries }

/-- The value of a key, if it is visible; an entry that has expired is removed. -/
def lookup [Add τ] [LE τ] [DecidableLE τ] (c : Cache κ ν τ) (now : τ) (k : κ) :
    Option ν × Cache κ ν τ :=
  match c.kept? k with
  | none => (none, c)
  | some e => if c.isFresh now e then (some e.value, c) else (none, c.dropEntry k)

/-! ## Changes from outside -/

/-- The load of a key that is on the way will not install its value any more, and will not be
shared any more. -/
def supersede (c : Cache κ ν τ) (k : κ) : Cache κ ν τ :=
  { c with
    generation := fun j => if j = k then c.generation j + 1 else c.generation j
    inFlight := c.inFlight.filter fun p => p.1 ≠ k }

/-- Installs a value in place of whatever the key had or was about to get. -/
def put (c : Cache κ ν τ) (now : τ) (k : κ) (v : ν) : Cache κ ν τ :=
  (c.supersede k).install now k v

/-- Drops a key, and tells whether it had an entry. -/
def invalidate (c : Cache κ ν τ) (k : κ) : Bool × Cache κ ν τ :=
  ((c.kept? k).isSome, (c.supersede k).dropEntry k)

/-- Drops all keys, loads on the way included. -/
def invalidateAll (c : Cache κ ν τ) : Cache κ ν τ :=
  let known := c.entries.map Entry.key ++ c.inFlight.map Prod.fst
  { known.foldl supersede c with entries := [] }

/-! ## Loads -/

/-- The load that those who ask for a key now will share. -/
def flight? (c : Cache κ ν τ) (k : κ) : Option Nat := c.inFlight.lookup k

/-- What asking for a key comes to. -/
inductive Access (ν : Type) where
  /-- The key is visible. -/
  | hit (v : ν)
  /-- A load of the key is on the way. -/
  | joined (load : Nat)
  /-- A new load of the key was started. -/
  | started (load : Nat)
  /-- The key would have to be loaded, and nobody said how. -/
  | noLoader
deriving Repr

/-- Starts a load of a key. -/
def startLoad (c : Cache κ ν τ) (k : κ) : Cache κ ν τ :=
  { c with
    inFlight := (k, c.nextLoad) :: c.inFlight
    loads := ⟨c.nextLoad, k, c.generation k⟩ :: c.loads
    nextLoad := c.nextLoad + 1 }

/-- Asks for a key: a visible value is a hit; else the load on the way is joined; else a load is
started, if one can be. -/
def request [Add τ] [LE τ] [DecidableLE τ] (c : Cache κ ν τ) (now : τ) (k : κ) (canLoad : Bool) :
    Access ν × Cache κ ν τ :=
  match c.lookup now k with
  | (some v, c) => (.hit v, c)
  | (none, c) =>
    match c.flight? k with
    | some id => (.joined id, c)
    | none => if canLoad then (.started c.nextLoad, c.startLoad k) else (.noLoader, c)

/-- Nobody said how to load the key. -/
def noLoaderFault [Keylike κ] (c : Cache κ ν τ) (k : κ) : Fault :=
  .badValue s!"{c.name}: no loader given for key {Keylike.written k}"

/-- The load is over. -/
def dropLoad (c : Cache κ ν τ) (l : Load κ) : Cache κ ν τ :=
  { c with
    inFlight := c.inFlight.filter fun p => p ≠ (l.key, l.id)
    loads := c.loads.filter fun m => m.id ≠ l.id }

/-- The end of a load: its value is installed if the load was not superseded, and a failed load
leaves nothing. Tells whether a value was installed. -/
def finish (c : Cache κ ν τ) (now : τ) (l : Load κ) (value : Option ν) : Bool × Cache κ ν τ :=
  match value with
  | some v =>
    if c.generation l.key = l.generation then (true, (c.install now l.key v).dropLoad l)
    else (false, c.dropLoad l)
  | none => (false, c.dropLoad l)

/-! ## Log events -/

section Events

variable [Keylike κ]

/-- A key with an entry was dropped. -/
def invalidatedEvent (c : Cache κ ν τ) (k : κ) : Log.Event :=
  ⟨.debug, "cache.invalidated", [("cache", .text c.name), ("key", .text (Keylike.shown k))]⟩

/-- A load installed its value. -/
def loadedEvent (c : Cache κ ν τ) (k : κ) : Log.Event :=
  ⟨.debug, "cache.loaded", [("cache", .text c.name), ("key", .text (Keylike.shown k))]⟩

/-- A load failed. -/
def loadFailedEvent (c : Cache κ ν τ) (k : κ) (f : Fault) : Log.Event :=
  ⟨.warning, "cache.load_failed",
    [("cache", .text c.name), ("key", .text (Keylike.shown k)), ("error", .text f.message)]⟩

end Events

end Cache

end NodeKeeper
