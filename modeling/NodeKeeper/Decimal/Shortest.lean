import NodeKeeper.Decimal.Binary

/-!
# Shortest decimals

The decimal with the fewest digits that lies between a double and its neighbours, so that it reads
back as that double; of several with that many digits, the one nearest to the double.

## Main definitions

* `Decimal` — a natural number times a power of ten.
* `Decimal.shortest` — the shortest decimal of a positive double.

## Implementation notes

All comparisons are between natural numbers: the double, the two ends of the interval of reals
that round to it, and the candidates are brought to one common unit. With `n` digits only the two
neighbours of the double on the grid of `n`-digit numbers can be nearest, and seventeen digits
always suffice.
-/

namespace NodeKeeper

/-- The number `coefficient * 10 ^ exponent`. -/
structure Decimal where
  coefficient : Nat
  exponent : Int
deriving DecidableEq, Repr

namespace Decimal

/-- How many digits a number has; zero has one. -/
def digitCount (n : Nat) : Nat := (Nat.toDigits 10 n).length

/-- How many digits the positive number `num / den` has before the point; zero or negative if
zeros follow the point. -/
def integerDigits (num den : Nat) : Int :=
  let places := digitCount den
  (digitCount (num * Nat.pow 10 places / den) : Int) - places

/-- The same number without zeros at the end of the coefficient. -/
def stripZeros : Nat → Decimal → Decimal
  | 0, d => d
  | fuel + 1, d =>
    if d.coefficient % 10 = 0 then stripZeros fuel ⟨d.coefficient / 10, d.exponent + 1⟩ else d

/-- Of the two neighbours of `value` on the grid of step `unit`, the nearest that lies within the
ends; a tie goes to the even one. All four are in one unit, and the ends count only if `closed`. -/
def gridHit? (closed : Bool) (low value high unit : Nat) : Option Nat :=
  let inside := fun c =>
    if closed then low ≤ c * unit ∧ c * unit ≤ high else low < c * unit ∧ c * unit < high
  let below := value / unit
  let above := below + 1
  if inside below then
    if inside above then
      let down := value - below * unit
      let up := above * unit - value
      if up < down || (up == down && below % 2 == 1) then some above else some below
    else some below
  else if inside above then some above
  else none

/-- The shortest decimal of the positive double `significand * 2 ^ exponent`. The interval of reals
that round to it reaches half a unit to either side, and a quarter below a power of two (the least
one apart), and its ends belong to it if the significand is even. -/
def shortest (significand : Nat) (exponent : Int) : Decimal :=
  let lowGap := if significand = 1 <<< 52 ∧ exponent ≠ -1074 then 1 else 2
  let quarter := exponent - 2
  let whole := integerDigits (significand <<< exponent.toNat) (1 <<< (-exponent).toNat)
  let places := fun (n : Nat) => whole - n
  let attempt := fun (n : Nat) =>
    let scale := Nat.pow 10 (-(places n)).toNat <<< quarter.toNat
    let unit := Nat.pow 10 (places n).toNat <<< (-quarter).toNat
    (gridHit? (significand % 2 == 0) ((4 * significand - lowGap) * scale)
      (4 * significand * scale) ((4 * significand + 2) * scale) unit).map
      fun c => stripZeros n ⟨c, places n⟩
  match (List.range 17).findSome? fun n => attempt (n + 1) with
  | some d => d
  | none => ⟨significand, 0⟩

end Decimal

end NodeKeeper
