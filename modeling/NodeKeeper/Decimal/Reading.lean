import NodeKeeper.Decimal.Shortest

/-!
# From decimals to doubles

The double nearest to a decimal or to an integer, and the integer nearest to a double.

## Main definitions

* `Decimal.toFloat` — the double nearest to a decimal, an infinity beyond the largest.
* `Decimal.ofInt?` — the double nearest to an integer, if it is finite.
* `Decimal.truncate?` — the integer part of a finite double.
-/

namespace NodeKeeper.Decimal

/-- Changes the sign of a double. -/
def negateIf (negative : Bool) (x : Float) : Float := if negative then -x else x

/-- The double nearest to a decimal. A number with more than 310 digits before the point is beyond
the largest double, and one with more than 400 zeros after it rounds to zero, so the powers of ten
that are formed stay small. -/
def toFloat (d : Decimal) : Float :=
  let whole := digitCount d.coefficient + d.exponent
  if d.coefficient = 0 || whole < -400 then 0.0
  else if 310 < whole then 1.0 / 0.0
  else Float.ofScientific d.coefficient (d.exponent < 0) d.exponent.natAbs

/-- The double nearest to an integer, an infinity beyond the largest. -/
def ofInt (n : Int) : Float := negateIf (n < 0) (toFloat ⟨n.natAbs, 0⟩)

/-- The double nearest to an integer, if it is finite. -/
def ofInt? (n : Int) : Option Float :=
  let x := ofInt n
  if x.isFinite then some x else none

/-- The double nearest to a thousandth of an integer, if it is finite. -/
def thousandths? (n : Int) : Option Float :=
  let x := negateIf (n < 0) (toFloat ⟨n.natAbs, -3⟩)
  if x.isFinite then some x else none

/-- The integer part of a finite double. -/
def truncate? (x : Float) : Option Int :=
  match Binary.ofFloat x with
  | .finite negative significand exponent =>
    let n : Int := (significand <<< exponent.toNat / 1 <<< (-exponent).toNat : Nat)
    some (if negative then -n else n)
  | _ => none

/-- The double is an integer. -/
def isWhole (x : Float) : Bool :=
  match Binary.ofFloat x with
  | .finite _ significand exponent => significand <<< exponent.toNat % 1 <<< (-exponent).toNat == 0
  | _ => false

end NodeKeeper.Decimal
