import NodeKeeper.Decimal.Layout
import NodeKeeper.Decimal.Reading
import NodeKeeper.Text.Quoted

/-!
# Reported values

What a provider reports about a resource has no fixed shape: a state is a document of nulls,
truth values, numbers, texts, lists and records. The lifecycle flows hand it to predicates, keep it
as the last observed state and show it in messages.

## Main definitions

* `Value` — a document.
* `Value.isTruthy` — whether a document counts as "yes" where only that is asked.
* `Value.written`, `Value.shown` — a document inside a message.
* `Value.agrees` — equality of documents, numbers being compared by value.

## Implementation notes

Integers and doubles stay apart, because they are written differently. A record lists its fields in
order; no operation depends on the order but `Value.written`.
-/

namespace NodeKeeper

/-- A document as a provider reports it. -/
inductive Value where
  | null
  | bool (b : Bool)
  | int (n : Int)
  | float (x : Float)
  | text (s : String)
  | list (items : List Value)
  | record (fields : List (String × Value))
deriving Inhabited

namespace Value

/-- Absent, zero and empty documents count as "no", all others as "yes". -/
def isTruthy : Value → Bool
  | null => false
  | bool b => b
  | int n => n != 0
  | float x => x != 0.0
  | text s => s != ""
  | list items => !items.isEmpty
  | record fields => !fields.isEmpty

/-- The document is absent. -/
def isNull : Value → Bool
  | null => true
  | _ => false

/-- The field of a record. -/
def field? (name : String) : Value → Option Value
  | record fields => fields.lookup name
  | _ => none

/-- The field of a record, or nothing at all. -/
def fieldD (name : String) (v : Value) : Value := (v.field? name).getD null

/-- Gives a record a field: a field of that name keeps its place and gets the new document. -/
def setField (name : String) (v : Value) : List (String × Value) → List (String × Value)
  | [] => [(name, v)]
  | (n, w) :: rest => if n = name then (n, v) :: rest else (n, w) :: setField name v rest

/-! ## Written form -/

/-- The two spellings of a truth value. -/
def truthWord (b : Bool) : String := if b then "True" else "False"

mutual

/-- A document inside a message: texts are quoted, lists and records stand in brackets. -/
def written : Value → String
  | null => "None"
  | bool b => truthWord b
  | int n => toString n
  | float x => Decimal.text x
  | text s => Text.quoted s
  | list items => "[" ++ ", ".intercalate (writtenItems items) ++ "]"
  | record fields => "\x7b" ++ ", ".intercalate (writtenFields fields) ++ "\x7d"

/-- The written elements of a list. -/
def writtenItems : List Value → List String
  | [] => []
  | v :: rest => v.written :: writtenItems rest

/-- The written fields of a record. -/
def writtenFields : List (String × Value) → List String
  | [] => []
  | (name, v) :: rest => (Text.quoted name ++ ": " ++ v.written) :: writtenFields rest

end

/-- A document as a part of running text: a text stands for itself, all else is written. -/
def shown : Value → String
  | text s => s
  | v => v.written

/-! ## Comparison -/

/-- The number that a document is, as a sign, a numerator and a denominator; truth values are the
numbers zero and one. -/
def fraction? : Value → Option (Int × Nat)
  | bool b => some (if b then 1 else 0, 1)
  | int n => some (n, 1)
  | float x =>
    match Binary.ofFloat x with
    | .finite negative significand exponent =>
      let (num, den) := Binary.fraction significand exponent
      some (if negative then -num else num, den)
    | _ => none
  | _ => none

/-- Equality of two documents that are no collections. -/
def agreesLeaf (a b : Value) : Bool :=
  match a, b with
  | null, null => true
  | text s, text t => s == t
  | float x, float y => x == y
  | _, _ =>
    match a.fraction?, b.fraction? with
    | some (m, p), some (n, q) => m * q == n * p
    | _, _ => false

mutual

/-- Equality of documents: numbers by value, whichever way they are stored, and records without
regard to the order of their fields. -/
def agrees : Value → Value → Bool
  | list items, other =>
    match other with
    | list others => agreesItems items others
    | _ => false
  | record fields, other =>
    match other with
    | record others => fields.length == others.length && agreesFields fields others
    | _ => false
  | v, other => agreesLeaf v other

/-- Equality of lists, element by element. -/
def agreesItems : List Value → List Value → Bool
  | [], [] => true
  | v :: rest, w :: others => v.agrees w && agreesItems rest others
  | _, _ => false

/-- Every field of the first record is a field of the second with an equal document. -/
def agreesFields : List (String × Value) → List (String × Value) → Bool
  | [], _ => true
  | (name, v) :: rest, others =>
    (match others.lookup name with
      | some w => v.agrees w
      | none => false) && agreesFields rest others

end

end Value

end NodeKeeper
