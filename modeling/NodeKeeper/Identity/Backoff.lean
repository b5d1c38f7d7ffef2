import NodeKeeper.Config.Identity
import NodeKeeper.Web.Channel

/-!
# Trying again

A request that the transport lost is sent again after a wait. Each wait is twice as long as the one
before, up to a limit, and a random amount may be added to it.

## Main definitions

* `Backoff.wait` — the wait after an attempt.
* `Backoff.post` — a request that is tried again.
-/

namespace NodeKeeper

namespace Backoff

section Bounds

variable {τ : Type} [LT τ] [DecidableLT τ] [Zero τ]

/-- Cuts an amount down to what is allowed, and a negative one to nothing. -/
def clamp (limit x : τ) : τ :=
  let cut := if limit < x then limit else x
  if 0 < cut then cut else 0

end Bounds

/-- The power of two by which the first wait has grown, as long as it is a double. -/
def growth? (doublings : Nat) : Option Float :=
  if doublings < 1024 then some (Decimal.ofInt (1 <<< doublings : Nat)) else none

/-- The wait after an attempt, the first of which has the number one. -/
def wait (s : Config.RetrySettings) (attempt : Nat) (jitter : Float) : Float :=
  match growth? (attempt - 1) with
  | some g => clamp s.maxWait (s.initialWait * g + jitter)
  | none => clamp s.maxWait s.maxWait

variable {σ : Type}

/-- The random amount of a wait. It is at most the multiplier of the settings. -/
def jitter (ch : Web.Channel σ) (s : Config.RetrySettings) : Flow (Web.Wire σ) Float :=
  if s.jitter then Web.draw ch s.multiplier else pure 0.0

/-- Sends a request as the attempt of a number, with so many more to follow if the transport loses
it. -/
def postFrom (ch : Web.Channel σ) (s : Config.RetrySettings) (req : Web.Request) :
    Nat → Nat → Flow (Web.Wire σ) Web.Response
  | 0, _ => do Flow.ofExcept (← Web.send ch req)
  | more + 1, attempt => do
    match ← Web.send ch req with
    | .ok r => return r
    | .error f =>
      if f.isA .transport then
        Web.pause (wait s attempt (← jitter ch s))
        postFrom ch s req more (attempt + 1)
      else Flow.raise f

/-- Sends a request, and sends it again as long as the transport loses it and the settings allow
one more attempt. -/
def post (ch : Web.Channel σ) (s : Config.RetrySettings) (req : Web.Request) :
    Flow (Web.Wire σ) Web.Response :=
  postFrom ch s req (s.attempts.toNat - 1) 1

end Backoff

end NodeKeeper
