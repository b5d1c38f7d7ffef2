/-!
# Characters in plain letters

A text of any characters is written with letters, digits and hyphens alone: first the characters
that are such already, and behind a hyphen the others, by their code points and places. Both are
joined to one number, and of these numbers the differences are written, in increasing order.

## Main definitions

* `Punycode.encode` — the plain form of a text.
* `Punycode.decode?` — the code points of the text that a plain form stands for.

## Implementation notes

A number is written with digits to the base 36, the least first. Every digit but the last is at
least as great as a threshold, which depends on its place and on a bias that follows the size of
the numbers so far.
-/

namespace NodeKeeper.Punycode

/-- The digit of a value: letters first. -/
def digit (n : Nat) : Char := if n < 26 then Char.ofNat (97 + n) else Char.ofNat (22 + n)

/-- The value of a digit, in letters of either case. -/
def digitValue? (c : Char) : Option Nat :=
  if 'a' ≤ c && c ≤ 'z' then some (c.toNat - 97)
  else if 'A' ≤ c && c ≤ 'Z' then some (c.toNat - 65)
  else if c.isDigit then some (c.toNat - 22)
  else none

/-- The threshold of the digit at a place. -/
def threshold (place bias : Nat) : Nat := min 26 (max 1 (36 * (place + 1) - bias))

theorem one_le_threshold (place bias : Nat) : 1 ≤ threshold place bias := by
  unfold threshold; omega

/-- A number cut down until it is small, and how often it had to be cut. -/
def cutDown (delta : Nat) (times : Nat) : Nat × Nat :=
  if 455 < delta then cutDown (delta / 35) (times + 1) else (delta, times)
termination_by delta

/-- The bias after a number, with so many characters placed. -/
def adapt (delta : Nat) (isFirst : Bool) (count : Nat) : Nat :=
  let scaled := if isFirst then delta / 700 else delta / 2
  let (small, times) := cutDown (scaled + scaled / count) 0
  36 * times + 36 * small / (small + 38)

/-! ## Writing -/

/-- The digits of a number from a place on. -/
def digits (bias place n : Nat) : List Char :=
  let t := threshold place bias
  if n < t then [digit n]
  else digit (t + (n - t) % (36 - t)) :: digits bias (place + 1) ((n - t) / (36 - t))
termination_by n
decreasing_by
  have := one_le_threshold place bias
  exact Nat.lt_of_le_of_lt (Nat.div_le_self _ _) (by omega)

/-- How far the writing has come: what was written, the last first, the difference so far, the bias,
and the number of characters placed. -/
structure Writing where
  reversed : List Char := []
  delta : Nat := 0
  bias : Nat := 72
  isFirst : Bool := true
  count : Nat

/-- Passes a character while the places of a code point are sought. -/
def Writing.pass (code : Nat) (s : Writing) (c : Char) : Writing :=
  if c.toNat < code then { s with delta := s.delta + 1 }
  else if c.toNat = code then
    { reversed := (digits s.bias 0 s.delta).reverse ++ s.reversed
      delta := 0
      bias := adapt s.delta s.isFirst (s.count + 1)
      isFirst := false
      count := s.count + 1 }
  else s

/-- Writes the places of the code points that are given in increasing order, the last of those
before being `code`. -/
def writeCodes (cs : List Char) : List Nat → Nat → Writing → Writing
  | [], _, s => s
  | next :: rest, code, s =>
    let ahead := { s with delta := s.delta + (next - code) * (s.count + 1) }
    let after := cs.foldl (Writing.pass next) ahead
    writeCodes cs rest (next + 1) { after with delta := after.delta + 1 }

/-- The plain form of a text. -/
def encode (cs : List Char) : List Char :=
  let plain := cs.filter fun c => c.toNat < 0x80
  let others := (cs.filter fun c => 0x80 ≤ c.toNat).map Char.toNat
  let codes := (others.mergeSort fun a b => decide (a ≤ b)).eraseDups
  let s := writeCodes cs codes 0x80 { count := plain.length }
  (if plain.isEmpty then [] else plain ++ ['-']) ++ s.reversed.reverse

/-! ## Reading -/

/-- The number that starts at a place with a weight, and what follows it. -/
def number? (bias : Nat) : Nat → Nat → List Char → Option (Nat × List Char)
  | _, _, [] => none
  | place, weight, c :: rest => do
    let n ← digitValue? c
    let t := threshold place bias
    if n < t then return (n * weight, rest)
    else
      let (more, after) ← number? bias (place + 1) (weight * (36 - t)) rest
      return (n * weight + more, after)

/-- Places the code points that follow among those so far: `at` is the place of the next, `code` the
last code point, and so many digits are left at most. -/
def place? : Nat → Nat → Nat → Nat → Bool → List Nat → List Char → Option (List Nat)
  | _, _, _, _, _, placed, [] => some placed
  | 0, _, _, _, _, _, _ => none
  | left + 1, next, code, bias, isFirst, placed, cs => do
    let (delta, rest) ← number? bias 0 1 cs
    let count := placed.length + 1
    let position := next + delta
    let code := code + position / count
    if 0x10ffff < code then none
    else
      let spot := position % count
      let all := placed.take spot ++ [code] ++ placed.drop spot
      place? left (spot + 1) code (adapt delta isFirst count) false all rest

/-- The code points of the text that a plain form stands for. -/
def decode? (cs : List Char) : Option (List Nat) :=
  match cs.reverse.dropWhile (· != '-') with
  | [] => place? cs.length 0 0x80 72 true [] cs
  | _ :: front =>
    let plain := front.reverse
    let rest := cs.drop (plain.length + 1)
    place? rest.length 0 0x80 72 true (plain.map Char.toNat) rest

end NodeKeeper.Punycode
