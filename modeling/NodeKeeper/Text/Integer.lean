import NodeKeeper.Text.CharClass

/-!
# Integers in texts

An integer is written with digits of any script, single low lines between them, a sign in front and
white space around. There is a limit to the number of digits that are read.

## Main definitions

* `Text.IntegerFlaw` — why a text is no integer.
* `Text.integer` — the integer that a text denotes.
* `Text.digitLimit` — how many digits are read.
-/

namespace NodeKeeper.Text

/-- Why a text is no integer. -/
inductive IntegerFlaw where
  | malformed
  /-- There are more digits than are read. -/
  | tooLong (digits : Nat)
deriving DecidableEq, Repr

/-- How many digits of an integer are read. -/
def digitLimit : Nat := 4300

/-- What is said about an integer with too many digits. -/
def tooLongMessage (digits : Nat) : String :=
  s!"Exceeds the limit ({digitLimit} digits) for integer string conversion: value has " ++
    s!"{digits} digits; use sys.set_int_max_str_digits() to increase the limit"

/-- A digit of any script, or a low line. -/
def isDigitOrLow (c : Char) : Bool := c == '_' || (decimalDigit? c).isSome

/-- Digits in groups, with single low lines between the groups; `inGroup` tells whether a digit
stands in front. -/
def isGrouped : Bool → List Char → Bool
  | inGroup, [] => inGroup
  | inGroup, c :: rest => if c == '_' then inGroup && isGrouped false rest else isGrouped true rest

/-- The number that the digits in a row denote. -/
def digitsValue (cs : List Char) : Nat :=
  (cs.filterMap decimalDigit?).foldl (fun n d => 10 * n + d) 0

/-- A minus sign in front, and what follows the sign. -/
def splitSign : List Char → Bool × List Char
  | '-' :: rest => (true, rest)
  | '+' :: rest => (false, rest)
  | cs => (false, cs)

/-- The integer that a text denotes. The limit counts the digits at its start, whatever follows
them. -/
def integer (s : String) : Except IntegerFlaw Int :=
  let (negative, cs) := splitSign (trim isWhite s.toList)
  let row := cs.takeWhile isDigitOrLow
  let digits := row.countP (· != '_')
  if !isGrouped false row then .error .malformed
  else if digitLimit < digits then .error (.tooLong digits)
  else if row.length < cs.length then .error .malformed
  else .ok (if negative then -(digitsValue row : Int) else digitsValue row)

end NodeKeeper.Text
