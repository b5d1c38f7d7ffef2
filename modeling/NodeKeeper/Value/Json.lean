import NodeKeeper.Text.Integer
import NodeKeeper.Value.Basic

/-!
# Documents as JSON text

Reading and writing documents in JSON. The reader keeps the kind of a number: a token with a point
or an exponent is a double, every other an integer of any size. It also takes the three words for
numbers that are none, and of two fields of one name the last counts.

## Main definitions

* `Json.parse` — the document that a text holds, or why it holds none.
* `Json.render` — the text of a document.

## Implementation notes

The reader is a recursive descent on the list of characters. Every call consumes a character or
passes to a smaller grammar rule, so the fuel `2 * length + 2` of `Json.parse` never runs out.
-/

namespace NodeKeeper.Json

/-! ## Reading -/

/-- Why a text holds no document. The first flaw from the left is reported. -/
inductive Flaw where
  | malformed
  /-- An integer has more digits than are read. -/
  | tooLong (digits : Nat)
  /-- Lists and records are nested too deeply; the innermost one is of this sort. -/
  | tooDeep (sort : String)
deriving DecidableEq, Repr

/-- How deeply lists and records may be nested. -/
def nestingLimit : Nat := 970

/-- The blanks between tokens. -/
def isGap (c : Char) : Bool := c = ' ' || c = '\t' || c = '\n' || c = '\r'

/-- Drops the blanks in front. -/
def skipGaps (cs : List Char) : List Char := cs.dropWhile isGap

/-- The value of a hexadecimal digit. -/
def hexValue? (c : Char) : Option Nat :=
  if c.isDigit then some (c.toNat - 48)
  else if 'a' ≤ c && c ≤ 'f' then some (c.toNat - 87)
  else if 'A' ≤ c && c ≤ 'F' then some (c.toNat - 55)
  else none

/-- Four hexadecimal digits. -/
def hexFour? : List Char → Option (Nat × List Char)
  | a :: b :: c :: d :: rest => do
    return (((← hexValue? a) * 16 + (← hexValue? b)) * 256 +
      ((← hexValue? c) * 16 + (← hexValue? d)), rest)
  | _ => none

/-- The character behind `\u`, already past those two; a high and a low surrogate in succession
stand for one character. -/
def unicodeEscape? (cs : List Char) : Option (Char × List Char) := do
  let (high, rest) ← hexFour? cs
  if 0xd800 ≤ high && high < 0xdc00 then
    if let '\\' :: 'u' :: more := rest then
      if let some (low, after) := hexFour? more then
        if 0xdc00 ≤ low && low < 0xe000 then
          return (Char.ofNat (0x10000 + (high - 0xd800) * 0x400 + (low - 0xdc00)), after)
    return ('\ufffd', rest)
  else if 0xdc00 ≤ high && high < 0xe000 then return ('\ufffd', rest)
  else return (Char.ofNat high, rest)

/-- The characters of a text up to its closing quote, collected in reverse. -/
def textBody? : Nat → List Char → List Char → Option (String × List Char)
  | 0, _, _ => none
  | fuel + 1, seen, cs =>
    match cs with
    | '"' :: rest => some (String.ofList seen.reverse, rest)
    | '\\' :: c :: rest =>
      match c with
      | '"' => textBody? fuel ('"' :: seen) rest
      | '\\' => textBody? fuel ('\\' :: seen) rest
      | '/' => textBody? fuel ('/' :: seen) rest
      | 'b' => textBody? fuel ('\x08' :: seen) rest
      | 'f' => textBody? fuel ('\x0c' :: seen) rest
      | 'n' => textBody? fuel ('\n' :: seen) rest
      | 'r' => textBody? fuel ('\r' :: seen) rest
      | 't' => textBody? fuel ('\t' :: seen) rest
      | 'u' =>
        match unicodeEscape? rest with
        | some (ch, after) => textBody? fuel (ch :: seen) after
        | none => none
      | _ => none
    | c :: rest => if c.toNat < 0x20 then none else textBody? fuel (c :: seen) rest
    | [] => none

/-- The number that a row of digits denotes. -/
def natOfDigits (ds : List Char) : Nat := ds.foldl (fun n c => 10 * n + (c.toNat - 48)) 0

/-- The fraction digits behind a point, if a point and a digit follow. -/
def fractionPart (cs : List Char) : List Char × List Char :=
  match cs with
  | '.' :: rest =>
    let ds := rest.takeWhile Char.isDigit
    if ds.isEmpty then ([], cs) else (ds, rest.dropWhile Char.isDigit)
  | _ => ([], cs)

/-- The exponent behind its letter, if a letter, perhaps a sign, and a digit follow. -/
def exponentPart (cs : List Char) : Option Int × List Char :=
  match cs with
  | c :: rest =>
    if c = 'e' || c = 'E' then
      let (negative, digits) :=
        match rest with
        | '-' :: more => (true, more)
        | '+' :: more => (false, more)
        | _ => (false, rest)
      let ds := digits.takeWhile Char.isDigit
      if ds.isEmpty then (none, cs)
      else
        let n : Int := natOfDigits ds
        (some (if negative then -n else n), digits.dropWhile Char.isDigit)
    else (none, cs)
  | [] => (none, cs)

/-- A number without its sign: an integer part without leading zeros, then perhaps a fraction and
an exponent. -/
def number (negative : Bool) (cs : List Char) : Except Flaw (Value × List Char) :=
  let whole := cs.takeWhile Char.isDigit
  match whole with
  | [] => .error .malformed
  | '0' :: _ :: _ => finish ['0'] (cs.drop 1)
  | _ => finish whole (cs.drop whole.length)
where
  /-- Adds the fraction and the exponent to the integer part. -/
  finish (whole rest : List Char) : Except Flaw (Value × List Char) :=
    let (places, afterPlaces) := fractionPart rest
    let (power, after) := exponentPart afterPlaces
    if places.isEmpty && power.isNone then
      if Text.digitLimit < whole.length then .error (.tooLong whole.length)
      else
        let n : Int := natOfDigits whole
        .ok (.int (if negative then -n else n), after)
    else
      let d : Decimal := ⟨natOfDigits (whole ++ places), power.getD 0 - places.length⟩
      .ok (.float (Decimal.negateIf negative d.toFloat), after)

/-- The rest of a text behind a word that it starts with. -/
def word? (word : String) (cs : List Char) : Option (List Char) :=
  if word.toList.isPrefixOf cs then some (cs.drop word.length) else none

/-- A document that is a single word. -/
def keyword? (cs : List Char) : Option (Value × List Char) :=
  [("null", Value.null), ("true", .bool true), ("false", .bool false),
    ("NaN", .float (0.0 / 0.0)), ("Infinity", .float (1.0 / 0.0)),
    ("-Infinity", .float (-1.0 / 0.0))].findSome? fun (word, v) =>
      (word? word cs).map fun rest => (v, rest)

/-- A document that is a word or a number. -/
def scalar (cs : List Char) : Except Flaw (Value × List Char) :=
  match keyword? cs with
  | some found => .ok found
  | none =>
    match cs with
    | '-' :: rest => number true rest
    | _ => number false cs

/-- A text behind its opening quote. -/
def textOf (fuel : Nat) (cs : List Char) : Except Flaw (String × List Char) :=
  match textBody? fuel [] cs with
  | some found => .ok found
  | none => .error .malformed

mutual

/-- A document and what follows it, with so many levels of nesting left. -/
def document : Nat → Nat → List Char → Except Flaw (Value × List Char)
  | 0, _, _ => .error .malformed
  | fuel + 1, depth, cs =>
    match cs, depth with
    | '"' :: rest, _ => (textOf fuel rest).map fun (s, after) => (.text s, after)
    | '[' :: _, 0 => .error (.tooDeep "array")
    | '[' :: rest, depth + 1 =>
      match skipGaps rest with
      | ']' :: after => .ok (.list [], after)
      | first => (items fuel depth [] first).map fun (vs, after) => (.list vs, after)
    | '\x7b' :: _, 0 => .error (.tooDeep "object")
    | '\x7b' :: rest, depth + 1 =>
      match skipGaps rest with
      | '\x7d' :: after => .ok (.record [], after)
      | first => (fields fuel depth [] first).map fun (fs, after) => (.record fs, after)
    | _, _ => scalar cs

/-- The elements of a list up to its bracket, collected in reverse. -/
def items : Nat → Nat → List Value → List Char → Except Flaw (List Value × List Char)
  | 0, _, _, _ => .error .malformed
  | fuel + 1, depth, seen, cs =>
    match document fuel depth cs with
    | .error f => .error f
    | .ok (v, rest) =>
      match skipGaps rest with
      | ',' :: more => items fuel depth (v :: seen) (skipGaps more)
      | ']' :: after => .ok ((v :: seen).reverse, after)
      | _ => .error .malformed

/-- The fields of a record up to its bracket. -/
def fields : Nat → Nat → List (String × Value) → List Char →
    Except Flaw (List (String × Value) × List Char)
  | 0, _, _, _ => .error .malformed
  | fuel + 1, depth, seen, cs =>
    match cs with
    | '"' :: rest =>
      match textOf fuel rest with
      | .error f => .error f
      | .ok (name, after) =>
        match skipGaps after with
        | ':' :: more =>
          match document fuel depth (skipGaps more) with
          | .error f => .error f
          | .ok (v, next) =>
            match skipGaps next with
            | ',' :: others => fields fuel depth (Value.setField name v seen) (skipGaps others)
            | '\x7d' :: last => .ok (Value.setField name v seen, last)
            | _ => .error .malformed
        | _ => .error .malformed
    | _ => .error .malformed

end

/-- The document that a text holds, blanks around it aside. -/
def parse (s : String) : Except Flaw Value :=
  let cs := s.toList
  match document (2 * cs.length + 2) nestingLimit (skipGaps cs) with
  | .ok (v, rest) => if (skipGaps rest).isEmpty then .ok v else .error .malformed
  | .error f => .error f

/-! ## Writing -/

/-- The characters that have a letter of their own behind a backslash. -/
def escapeLetters : List (Char × Char) := [
  ('"', '"'), ('\\', '\\'), ('\n', 'n'), ('\r', 'r'), ('\t', 't'), ('\x08', 'b'), ('\x0c', 'f')]

/-- A character inside a quoted text. -/
def escapeChar (c : Char) : List Char :=
  match escapeLetters.lookup c with
  | some letter => ['\\', letter]
  | none => if c.toNat < 0x20 then '\\' :: 'u' :: Text.hexDigits 4 c.toNat else [c]

/-- A quoted text. -/
def renderText (s : String) : String :=
  String.ofList ('"' :: s.toList.flatMap escapeChar ++ ['"'])

mutual

/-- Every number in a document is one that has a JSON form. -/
def isFinite : Value → Bool
  | .float x => !x.isNaN && !x.isInf
  | .list items => areFinite items
  | .record fields => areFiniteFields fields
  | _ => true

/-- The same of all elements of a list. -/
def areFinite : List Value → Bool
  | [] => true
  | v :: rest => isFinite v && areFinite rest

/-- The same of all fields of a record. -/
def areFiniteFields : List (String × Value) → Bool
  | [] => true
  | (_, v) :: rest => isFinite v && areFiniteFields rest

end

mutual

/-- The text of a document. Numbers that are none have no JSON form and appear as their words. -/
def render : Value → String
  | .null => "null"
  | .bool b => if b then "true" else "false"
  | .int n => toString n
  | .float x => Decimal.text x
  | .text s => renderText s
  | .list items => "[" ++ ",".intercalate (renderItems items) ++ "]"
  | .record fields => "\x7b" ++ ",".intercalate (renderFields fields) ++ "\x7d"

/-- The texts of the elements of a list. -/
def renderItems : List Value → List String
  | [] => []
  | v :: rest => render v :: renderItems rest

/-- The texts of the fields of a record. -/
def renderFields : List (String × Value) → List String
  | [] => []
  | (name, v) :: rest => (renderText name ++ ":" ++ render v) :: renderFields rest

end

end NodeKeeper.Json
