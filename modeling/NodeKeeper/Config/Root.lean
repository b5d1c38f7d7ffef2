import NodeKeeper.Config.Identity
import NodeKeeper.Config.Timing

/-!
# The whole configuration

## Main definitions

* `CacheSettings` — how long tokens and key pairs are kept.
* `Settings` — all sections. Here, and only here, an unknown setting is a problem.
-/

namespace NodeKeeper.Config

open Section Setting

/-- How long tokens and key pairs are kept, in seconds; `margin` is how long before its end a token
counts as expired. -/
structure CacheSettings where
  tokenTtl : Float := 3540.0
  sessionTtl : Float := 39600.0
  keyPairTtl : Option Float := none
  margin : Float := 30.0
deriving Inhabited

/-- How long tokens and key pairs are kept. -/
def CacheSettings.read (v : Value) : Checked CacheSettings :=
  match fields "CacheConfig" v with
  | .error ps => .error ps
  | .ok fs =>
    CacheSettings.mk <$> setting fs "token_ttl_seconds" (some 3540.0) (numberAbove 0)
      <*> setting fs "session_token_ttl_seconds" (some 39600.0) (numberAbove 0)
      <*> setting fs "key_pair_ttl_seconds" (some none) (optional (numberAbove 0))
      <*> setting fs "token_expiry_margin_seconds" (some 30.0) (numberAtLeast 0)

/-- The whole configuration. -/
structure Settings where
  namingLead : String := "nodes"
  provision : Timing := ProvisionTiming.default
  teardown : Timing := TeardownTiming.default
  image : Timing := ImageTiming.default
  cache : CacheSettings := {}
  identity : Option IdentitySettings := none
deriving Inhabited

namespace Settings

/-- The names of the settings. -/
def names : List String := ["naming_prefix", "provision", "teardown", "image", "cache", "auth"]

/-- What the names of nodes may start with. -/
def leadPattern : String := "^[a-z][a-z0-9]*$"

/-- A small letter. -/
def isSmall (c : Char) : Bool := 'a' ≤ c && c ≤ 'z'

/-- A small letter, and then small letters and digits. -/
def fitsLeadPattern : List Char → Bool
  | [] => false
  | c :: rest => isSmall c && rest.all fun d => isSmall d || d.isDigit

/-- What the names of nodes start with. -/
def lead : Reading String := fun v => do
  let s ← text v
  if fitsLeadPattern s.toList then .ok s else .error (.wrongPattern leadPattern)

/-- The identity service, unless it is null. -/
def readIdentity : Value → Checked (Option IdentitySettings)
  | .null => .ok none
  | v => some <$> IdentitySettings.read v

/-- The settings that no name stands for, in the order in which they were given. -/
def unknown (fs : List (String × Value)) : List Problem :=
  (fs.filter fun f => !names.contains f.1).map fun f => ⟨[f.1], .unknown⟩

/-- The known settings, section by section. -/
def readKnown (fs : List (String × Value)) : Checked Settings :=
  Settings.mk <$> setting fs "naming_prefix" (some "nodes") lead
    <*> part fs "provision" ProvisionTiming.default ProvisionTiming.read
    <*> part fs "teardown" TeardownTiming.default TeardownTiming.read
    <*> part fs "image" ImageTiming.default ImageTiming.read
    <*> part fs "cache" {} CacheSettings.read
    <*> part fs "auth" none readIdentity

/-- The whole configuration. -/
def read (v : Value) : Checked Settings :=
  match fields "LifecycleConfig" v with
  | .error ps => .error ps
  | .ok fs =>
    match readKnown fs, unknown fs with
    | .ok s, [] => .ok s
    | result, extra => .error (result.problems ++ extra)

end Settings

end NodeKeeper.Config
