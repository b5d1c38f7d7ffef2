import NodeKeeper.Config.Flaw
import NodeKeeper.Text.Integer
import NodeKeeper.Value.Basic

/-!
# Lenient settings

How a setting is read from a document. Texts are read as numbers and truth values, truth values and
whole doubles count as integers, and so on; what has no reading is a flaw.

## Main definitions

* `Setting.integer`, `Setting.number`, `Setting.truth`, `Setting.text` — the readings.
* `Setting.above`, `Setting.atLeast` — bounds on a reading.
-/

namespace NodeKeeper.Config.Setting

/-- A reading of a setting. -/
abbrev Reading (α : Type) := Value → Except Flaw α

/-! ## Integers -/

/-- The number that a row of digits denotes. -/
def natOf (ds : List Char) : Nat := ds.foldl (fun n c => 10 * n + (c.toNat - 48)) 0

/-- An integer in its plain form: a minus sign perhaps, and digits, the first of which is zero only
if it stands alone. A row with more digits than are read is oversized, whatever follows it. -/
def plainInteger (cs : List Char) : Except Flaw Int :=
  let (negative, ds) :=
    match cs with
    | '-' :: rest => (true, rest)
    | _ => (false, cs)
  let row := ds.takeWhile Char.isDigit
  if row.isEmpty || (row.head? == some '0' && row.length ≠ 1) then .error .unreadableInteger
  else if Text.digitLimit < row.length then .error .oversized
  else if row.length < ds.length then .error .unreadableInteger
  else .ok (if negative then -(natOf row : Int) else natOf row)

/-- Drops zeros at the start, and low lines among them. What follows is a digit or a minus sign; in
front of a point one character stays, and of zeros and low lines alone the last. -/
def dropZeros : List Char → Option (List Char)
  | '0' :: rest => go '0' rest
  | c :: rest => if c == '-' || c.isDigit then some (c :: rest) else none
  | [] => none
where
  /-- `last` is the zero or low line in front. -/
  go (last : Char) : List Char → Option (List Char)
    | [] => some [last]
    | c :: rest =>
      if c == '0' || c == '_' then go c rest
      else if c == '-' || c.isDigit then some (c :: rest)
      else if c == '.' then some (last :: c :: rest)
      else none

/-- Drops a point with zeros behind it, at least one, at the end. -/
def dropPlaces (cs : List Char) : List Char :=
  match cs.reverse with
  | '0' :: more =>
    match more.dropWhile (· == '0') with
    | '.' :: whole => whole.reverse
    | _ => cs
  | _ => cs

/-- No two low lines stand together. -/
def noDouble : List Char → Bool
  | '_' :: '_' :: _ => false
  | _ :: rest => noDouble rest
  | [] => true

/-- Low lines may stand alone, but at neither end. -/
def singleLows (cs : List Char) : Bool :=
  cs.head? != some '_' && cs.getLast? != some '_' && noDouble cs

/-- Drops low lines, if they stand alone and inside. -/
def dropLows (cs : List Char) : List Char := if singleLows cs then cs.filter (· != '_') else cs

/-- Drops what an integer may have besides its plain form: white space around, a plus sign, zeros at
the start and behind a point at the end, and low lines. -/
def tidied? (cs : List Char) : Option (List Char) :=
  let unsigned :=
    match Text.trim Text.isWhite cs with
    | '+' :: '-' :: _ => none
    | '+' :: rest => some rest
    | trimmed => some trimmed
  (unsigned.bind dropZeros).map fun digits => dropLows (dropPlaces digits)

/-- The integer that a text denotes, in its plain form or in one that can be tidied. -/
def textInteger (s : String) : Except Flaw Int :=
  match plainInteger s.toList with
  | .error .unreadableInteger =>
    match tidied? s.toList with
    | some cs => plainInteger cs
    | none => .error .unreadableInteger
  | r => r

/-- The doubles that fit a machine word. -/
def fitsWord (x : Float) : Bool := -9223372036854775808.0 < x && x < 9223372036854775807.0

/-- An integer. -/
def integer : Reading Int
  | .bool b => .ok (if b then 1 else 0)
  | .int n => .ok n
  | .float x =>
    match Decimal.truncate? x with
    | none => .error .notFinite
    | some n =>
      if !Decimal.isWhole x then .error .fractional
      else if fitsWord x then .ok n
      else .error .oversized
  | .text s => textInteger s
  | _ => .error .notInteger

/-! ## Numbers -/

/-- The exponent behind a number: nothing, or its letter, perhaps a sign, and digits. -/
def exponent? : List Char → Option Int
  | [] => some 0
  | mark :: rest =>
    if mark == 'e' || mark == 'E' then
      let (negative, ds) := Text.splitSign rest
      if ds.isEmpty || !ds.all Char.isDigit then none
      else
        let n : Int := natOf ds
        some (if negative then -n else n)
    else none

/-- A number without its sign: digits with at most one point among or beside them, and perhaps an
exponent. -/
def decimal? (cs : List Char) : Option Decimal :=
  let whole := cs.takeWhile Char.isDigit
  let rest := cs.dropWhile Char.isDigit
  let (places, tail) :=
    match rest with
    | '.' :: more => (more.takeWhile Char.isDigit, more.dropWhile Char.isDigit)
    | _ => ([], rest)
  if whole.isEmpty && places.isEmpty then none
  else (exponent? tail).map fun e => ⟨natOf (whole ++ places), e - places.length⟩

/-- A number as digits, or one of the words for those that are none. -/
def plainNumber? (cs : List Char) : Option Float :=
  let (negative, body) := Text.splitSign cs
  let word := String.ofList (body.map Char.toLower)
  if word == "inf" || word == "infinity" then some (Decimal.negateIf negative (1.0 / 0.0))
  else if word == "nan" then some (0.0 / 0.0)
  else (decimal? body).map fun d => Decimal.negateIf negative d.toFloat

/-- The number that a text denotes, with white space around, or with single low lines inside. -/
def numberText? (s : String) : Option Float :=
  match plainNumber? (Text.trim Text.isWhite s.toList) with
  | some x => some x
  | none =>
    if singleLows s.toList then plainNumber? (s.toList.filter (· != '_')) else none

/-- A double. -/
def number : Reading Float
  | .bool b => .ok (if b then 1.0 else 0.0)
  | .int n =>
    match Decimal.ofInt? n with
    | some x => .ok x
    | none => .error .notNumber
  | .float x => .ok x
  | .text s =>
    match numberText? s with
    | some x => .ok x
    | none => .error .unreadableNumber
  | _ => .error .notNumber

/-! ## Truth values, texts and choices -/

/-- The integers that fit a machine word. -/
def isWord (n : Int) : Bool := -9223372036854775808 ≤ n && n ≤ 9223372036854775807

/-- A truth value, as itself, as zero or one, or as one of the usual words in any case. -/
def truth : Reading Bool
  | .bool b => .ok b
  | .int n =>
    if n = 0 then .ok false
    else if n = 1 then .ok true
    else if isWord n then .error .unreadableTruthValue
    else .error .notTruthValue
  | .float x =>
    if x == 0.0 then .ok false
    else if x == 1.0 then .ok true
    else if Decimal.isWhole x && fitsWord x then .error .unreadableTruthValue
    else .error .notTruthValue
  | .text s =>
    let word := String.ofList (s.toList.map Char.toLower)
    if ["0", "off", "f", "false", "n", "no"].contains word then .ok false
    else if ["1", "on", "t", "true", "y", "yes"].contains word then .ok true
    else .error .unreadableTruthValue
  | _ => .error .notTruthValue

/-- A text. -/
def text : Reading String
  | .text s => .ok s
  | _ => .error .notText

/-- One of the choices, by its word. -/
def choice {α : Type} (choices : List (String × α)) (shown : String) : Reading α
  | .text s =>
    match choices.lookup s with
    | some a => .ok a
    | none => .error (.noChoice shown)
  | _ => .error (.noChoice shown)

/-- A setting that may be null. -/
def optional {α : Type} (read : Reading α) : Reading (Option α)
  | .null => .ok none
  | v => (read v).map some

/-! ## Bounds -/

/-- The integer is above a bound. -/
def integerAbove (bound : Int) : Reading Int := fun v => do
  let n ← integer v
  if bound < n then .ok n else .error (.notAbove bound)

/-- The integer is not below a bound. -/
def integerAtLeast (bound : Int) : Reading Int := fun v => do
  let n ← integer v
  if bound ≤ n then .ok n else .error (.below bound)

/-- The number is above a bound. -/
def numberAbove (bound : Int) : Reading Float := fun v => do
  let x ← number v
  if Decimal.ofInt bound < x then .ok x else .error (.notAbove bound)

/-- The number is not below a bound. -/
def numberAtLeast (bound : Int) : Reading Float := fun v => do
  let x ← number v
  if Decimal.ofInt bound ≤ x then .ok x else .error (.below bound)

end NodeKeeper.Config.Setting
