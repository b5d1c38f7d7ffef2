import NodeKeeper.Config.Flaw
import NodeKeeper.Orphan.Ref

/-!
# Faults

What can go wrong in a lifecycle flow, and what is said about it. Faults of the flows carry the
resource, the elapsed and allowed time and the last observed state, so that the caller can decide
whether to try again.

## Main definitions

* `Fault.Kind` — the kinds of faults, each below a more general one.
* `Fault.Kind.isA` — a kind lies below another.
* `Fault.Context` — what a lifecycle fault says about the resource.
* `Fault` — a fault.
* `Fault.ofKind` — a fault of a kind, with at most one argument.
* `Fault.message` — what is said about a fault.
-/

namespace NodeKeeper

namespace Fault

/-- The kinds of faults. -/
inductive Kind where
  /-- Every fault, cancellation included. -/
  | anything
  /-- The flow was cancelled from outside. -/
  | cancelled
  /-- Every fault but cancellation. -/
  | ordinary
  | runtime
  | badValue
  | badType
  | noSuchMember
  | lookup
  | missingKey
  | badIndex
  | arithmetic
  | zeroDivision
  | overflow
  | system
  | connection
  | connectionRefused
  | connectionReset
  | timedOut
  | lifecycle
  | createFailed
  | authenticationFailed
  | readinessTimeout
  | drainTimeout
  | deleteFailed
  | inconsistentState
  | orphanCleanupFailed
  | transport
  | connect
  | read
  | connectTimeout
  | readTimeout
  | remoteProtocol
  | tooManyRedirects
  | decoding
  | badStatus
  | malformedDocument
  | invalidSettings
  /-- An address is not valid. -/
  | badAddress
  /-- A text has characters that cannot be sent. -/
  | unencodable
  /-- Bytes are no text. -/
  | undecodable
  /-- A document is nested too deeply. -/
  | tooDeep
deriving DecidableEq, Repr, Inhabited

namespace Kind

/-- The next more general kind. -/
def parent? : Kind → Option Kind
  | anything => none
  | cancelled | ordinary => some anything
  | runtime | badValue | badType | noSuchMember | lookup | arithmetic | system | lifecycle
  | transport | tooManyRedirects | decoding | badStatus | badAddress => some ordinary
  | missingKey | badIndex => some lookup
  | zeroDivision | overflow => some arithmetic
  | connection | timedOut => some system
  | connectionRefused | connectionReset => some connection
  | createFailed | authenticationFailed | readinessTimeout | drainTimeout | deleteFailed
  | inconsistentState | orphanCleanupFailed => some lifecycle
  | connect | read | connectTimeout | readTimeout | remoteProtocol => some transport
  | malformedDocument | invalidSettings | unencodable | undecodable => some badValue
  | tooDeep => some runtime

/-- A kind and the more general ones, up to four steps; no kind has more above it. -/
def lineage (k : Kind) : List Kind :=
  go 4 k
where
  /-- The kind and so many steps above it. -/
  go : Nat → Kind → List Kind
    | 0, k => [k]
    | steps + 1, k =>
      match k.parent? with
      | some p => k :: go steps p
      | none => [k]

/-- A kind is another one or lies below it. -/
def isA (k general : Kind) : Bool := k.lineage.contains general

/-- Faults of a kind of the web always say what happened. -/
def needsText (k : Kind) : Bool := [transport, tooManyRedirects, decoding].any k.isA

end Kind

/-- What a lifecycle fault says about the resource. A null identifier or state is absent. -/
structure Context where
  resource : Value := .null
  elapsed : Option Float := none
  timeout : Option Float := none
  lastState : Value := .null
deriving Inhabited

namespace Context

/-- The time that has passed, against the time allowed. -/
def timing? : Option Float → Option Float → Option String
  | some elapsed, some timeout =>
    some s!"elapsed={Decimal.fixed 1 elapsed}s/{Decimal.fixed 1 timeout}s"
  | some elapsed, none => some s!"elapsed={Decimal.fixed 1 elapsed}s"
  | none, _ => none

/-- A headline followed by all that the context says. -/
def describe (headline : String) (c : Context) : String :=
  let resource := if c.resource.isNull then none else some s!"resource={c.resource.shown}"
  let state := if c.lastState.isNull then none else some s!"last_state={c.lastState.written}"
  " ".intercalate (headline :: [resource, timing? c.elapsed c.timeout, state].filterMap id)

end Context

end Fault

/-- A fault. -/
inductive Fault where
  /-- A fault with at most one argument, its text. -/
  | plain (kind : Fault.Kind) (argument : Option String)
  /-- A document has not the shape that was asked for. -/
  | misfit (kind : Fault.Kind) (text : String)
  /-- A fault of a lifecycle flow. -/
  | lifecycle (kind : Fault.Kind) (headline : String) (context : Fault.Context)
  /-- A resource never became ready, and taking it back failed as well. -/
  | unclean (headline : String) (context : Fault.Context) (cleanup : Fault)
  /-- A secondary resource could not be removed. -/
  | orphan (ref : OrphanRef) (cause : Fault)
  /-- Something that is no reference could not be removed. -/
  | orphanValue (subject : Value) (cause : Fault)
  /-- A fault that another one led to. -/
  | causedBy (fault cause : Fault)
  /-- An answer with a status that reports no success. -/
  | badStatus (code : Int)
  /-- Settings that are not valid. -/
  | invalid (problems : List Config.Problem)
deriving Inhabited

namespace Fault

/-- The kind of a fault. -/
def kind : Fault → Kind
  | plain k _ => k
  | misfit k _ => k
  | lifecycle k _ _ => k
  | unclean _ _ _ => .readinessTimeout
  | orphan _ _ | orphanValue _ _ => .orphanCleanupFailed
  | causedBy f _ => f.kind
  | badStatus _ => .badStatus
  | invalid _ => .invalidSettings

/-- A fault is of a kind or of one below it. -/
def isA (f : Fault) (k : Kind) : Bool := f.kind.isA k

/-- A fault that a flow may handle: every one but cancellation and its like. -/
def isOrdinary (f : Fault) : Bool := f.isA .ordinary

/-- A fault of a lifecycle flow. -/
def isLifecycle (f : Fault) : Bool := f.isA .lifecycle

/-- What is said about a plain fault: the missing key is quoted, all other texts stand as they
are. -/
def plainMessage (kind : Kind) (argument : Option String) : String :=
  match argument with
  | none => ""
  | some s => if kind.isA .missingKey then Text.quoted s else s

/-- What is said about a fault. -/
def message : Fault → String
  | plain kind argument => plainMessage kind argument
  | misfit _ text => text
  | lifecycle _ headline context => context.describe headline
  | unclean headline context cleanup =>
    context.describe s!"{headline} (cleanup also failed: {cleanup.message})"
  | orphan ref cause =>
    Context.describe s!"Failed to clean up orphan {ref.written}: {cause.message}"
      ⟨ref.id, none, none, .null⟩
  | orphanValue subject cause =>
    s!"Failed to clean up orphan {subject.shown}: {cause.message}"
  | causedBy f _ => f.message
  | badStatus _ => ""
  | invalid _ => ""

/-- The context of a lifecycle fault. -/
def context? : Fault → Option Context
  | lifecycle _ _ context => some context
  | unclean _ context _ => some context
  | orphan ref _ => some ⟨ref.id, none, none, .null⟩
  | orphanValue _ _ => some ⟨.null, none, none, .null⟩
  | causedBy f _ => f.context?
  | _ => none

/-- The fault that led to this one. -/
def cause? : Fault → Option Fault
  | causedBy _ cause => some cause
  | _ => none

/-- The fault of taking back a resource that never became ready. -/
def cleanup? : Fault → Option Fault
  | unclean _ _ cleanup => some cleanup
  | causedBy f _ => f.cleanup?
  | _ => none

/-! ## Faults by name -/

/-- The flow was cancelled. -/
def cancellation : Fault := plain .cancelled none

/-- An argument has the right type and a value that is not allowed. -/
def badValue (text : String) : Fault := plain .badValue (some text)

/-- A document is of the wrong type. -/
def badType (text : String) : Fault := misfit .badType text

/-- A document has no member of that name. -/
def noSuchMember (text : String) : Fault := misfit .noSuchMember text

/-- A record has no such field. -/
def missingKey (name : String) : Fault := plain .missingKey (some name)

/-- A fault of a kind, with at most one argument. A fault that needs a text cannot be made without
one, and to try it is a fault of another kind. -/
def ofKind (kind : Kind) (argument : Option String) : Fault :=
  if kind.needsText && argument.isNone then
    badType "RequestError.__init__() missing 1 required positional argument: 'message'"
  else plain kind argument

end Fault

end NodeKeeper
