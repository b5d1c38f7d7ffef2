import NodeKeeper.Flow
import NodeKeeper.Log
import NodeKeeper.Web.Acceptance

/-!
# Sending requests

Requests are sent over a channel that may fail. What a flow does to the world by sending them can be
read off: the requests, the pauses between them and the log.

## Main definitions

* `Web.Channel` — what answers the requests, with a state of its own.
* `Web.Wire` — the world of a flow that sends requests.
* `Web.send` — sends a request.
-/

namespace NodeKeeper.Web

/-- What answers the requests, with states in `σ`. -/
structure Channel (σ : Type) where
  send : Request → σ → Except Fault Response × σ
  /-- Draws a number between zero and a bound. -/
  draw : Float → σ → Float × σ

/-- The world of a flow that sends requests. -/
structure Wire (σ : Type) where
  line : σ
  requests : List Request := []
  pauses : List Float := []
  log : List Log.Event := []

variable {σ : Type}

/-- Sends a request. It counts even if it fails, unless its host cannot be sent. -/
def send (ch : Channel σ) (req : Request) : Flow (Wire σ) (Except Fault Response) := fun w =>
  if isPlain req.address.host then
    let (r, line) := ch.send req w.line
    (.returned (r.bind (accept req)), { w with line, requests := w.requests ++ [req] })
  else (.returned (.error unencodable), w)

/-- Draws a number between zero and a bound. -/
def draw (ch : Channel σ) (bound : Float) : Flow (Wire σ) Float := fun w =>
  let (x, line) := ch.draw bound w.line
  (.returned x, { w with line })

/-- Pauses. -/
def pause (s : Float) : Flow (Wire σ) Unit :=
  Flow.change fun w => { w with pauses := w.pauses ++ [s] }

/-- Adds an event to the log. -/
def note (e : Log.Event) : Flow (Wire σ) Unit := Flow.change fun w => { w with log := w.log ++ [e] }

end NodeKeeper.Web
