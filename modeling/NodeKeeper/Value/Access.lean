import NodeKeeper.Fault.Basic
import NodeKeeper.Text.Integer

/-!
# Looking into reported values

A predicate on a provider's state asks for fields, elements and counts. Where the state does not
have the asked shape, the fault says what was found instead.

## Main definitions

* `Value.index` — the field of a record, which must be there.
* `Value.get` — the field of a record, or null.
* `Value.elements` — what iterating over a document yields.
* `Value.holdsName` — whether a name occurs in a document.
* `Value.toCount` — a document as an integer.
-/

namespace NodeKeeper.Value

/-- What kind of document was found, in the words of a message. -/
def typeWord : Value → String
  | null => "NoneType"
  | bool _ => "bool"
  | int _ => "int"
  | float _ => "float"
  | text _ => "str"
  | list _ => "list"
  | record _ => "dict"

/-- The field of a record, which must be there. -/
def index (name : String) : Value → Except Fault Value
  | record fields =>
    match fields.lookup name with
    | some v => .ok v
    | none => .error (.missingKey name)
  | text _ => .error (.badType "string indices must be integers, not 'str'")
  | list _ => .error (.badType "list indices must be integers or slices, not str")
  | v => .error (.badType s!"'{v.typeWord}' object is not subscriptable")

/-- The field of a record, or null if there is none. -/
def get (name : String) : Value → Except Fault Value
  | record fields => .ok ((fields.lookup name).getD null)
  | v => .error (.noSuchMember s!"'{v.typeWord}' object has no attribute 'get'")

/-- What iterating over a document yields: the elements of a list, the characters of a text, the
field names of a record. -/
def elements : Value → Except Fault (List Value)
  | list items => .ok items
  | text s => .ok (s.toList.map fun c => text (String.ofList [c]))
  | record fields => .ok (fields.map fun f => text f.1)
  | v => .error (.badType s!"'{v.typeWord}' object is not iterable")

/-- A document, or another one if it counts as "no". -/
def orElse (v other : Value) : Value := if v.isTruthy then v else other

/-- The characters `part` occur in succession. -/
def occursIn (part : List Char) : List Char → Bool
  | [] => part.isEmpty
  | c :: rest => part.isPrefixOf (c :: rest) || occursIn part rest

/-- A name occurs in a document: as a field of a record, a part of a text, or an element of a
list. -/
def holdsName (name : String) : Value → Except Fault Bool
  | record fields => .ok (fields.lookup name).isSome
  | text s => .ok (occursIn name.toList s.toList)
  | list items => .ok (items.any fun v => v.agrees (text name))
  | v => .error (.badType s!"argument of type '{v.typeWord}' is not iterable")

/-- What is said about a text that is no integer. Of a long text only the start is quoted. -/
def integerComplaint (s : String) : Text.IntegerFlaw → String
  | .malformed =>
    "invalid literal for int() with base 10: " ++ String.ofList ((Text.quoted s).toList.take 200)
  | .tooLong digits => Text.tooLongMessage digits

/-- A document as an integer: doubles lose their fraction, texts are read. -/
def toCount : Value → Except Fault Int
  | bool b => .ok (if b then 1 else 0)
  | int n => .ok n
  | float x =>
    match Decimal.truncate? x with
    | some n => .ok n
    | none =>
      if x.isNaN then .error (.badValue "cannot convert float NaN to integer")
      else .error (.misfit .overflow "cannot convert float infinity to integer")
  | text s => (Text.integer s).mapError fun flaw => .badValue (integerComplaint s flaw)
  | v => .error (.badType
      s!"int() argument must be a string, a bytes-like object or a real number, not '{v.typeWord}'")

end NodeKeeper.Value
