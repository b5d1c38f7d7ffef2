/-!
# Binary numbers

A double seen as a number: a sign, a natural significand and a power of two, or one of the values
that are no number.

## Main definitions

* `Binary` — the numbers and non-numbers that a double can be.
* `Binary.ofBits`, `Binary.ofFloat` — what a double is, read off its bits.
-/

namespace NodeKeeper

/-- What a double is. -/
inductive Binary where
  /-- No number. -/
  | nan
  /-- An infinity, with its sign. -/
  | infinite (negative : Bool)
  /-- The number `significand * 2 ^ exponent`, negated if `negative`; zero has a sign too. -/
  | finite (negative : Bool) (significand : Nat) (exponent : Int)
deriving DecidableEq, Repr

namespace Binary

/-- A double from its 64 bits: one sign bit, eleven bits of exponent, 52 bits of significand. The
exponent 0 marks the subnormal numbers, and the exponent 2047 infinities and non-numbers. -/
def ofBits (bits : Nat) : Binary :=
  let negative := decide (1 <<< 63 ≤ bits)
  let biased : Nat := bits / 1 <<< 52 % 1 <<< 11
  let fraction : Nat := bits % 1 <<< 52
  if biased = 2047 then
    if fraction = 0 then .infinite negative else .nan
  else if biased = 0 then .finite negative fraction (-1074)
  else .finite negative (1 <<< 52 + fraction) ((biased : Int) - 1075)

/-- What a double is. -/
def ofFloat (x : Float) : Binary := ofBits x.toBits.toNat

/-- `significand * 2 ^ exponent` as a fraction of natural numbers. -/
def fraction (significand : Nat) (exponent : Int) : Nat × Nat :=
  (significand <<< exponent.toNat, 1 <<< (-exponent).toNat)

end Binary

end NodeKeeper
