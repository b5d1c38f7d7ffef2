import NodeKeeper.Value.Basic

/-!
# Log events

What the library reports about its work: a level, the name of the event, and named values.

## Main definitions

* `Log.Level`, `Log.Event` — an event and its level.
* `Log.Event.field?` — a named value of an event.
-/

namespace NodeKeeper.Log

/-- How urgent an event is. -/
inductive Level where
  | debug | info | warning | error
deriving DecidableEq, Repr

/-- The word of a level. -/
def Level.word : Level → String
  | debug => "debug"
  | info => "info"
  | warning => "warning"
  | error => "error"

/-- An event with its named values. -/
structure Event where
  level : Level
  name : String
  fields : List (String × Value)

/-- A named value of an event. -/
def Event.field? (e : Event) (name : String) : Option Value := e.fields.lookup name

end NodeKeeper.Log
