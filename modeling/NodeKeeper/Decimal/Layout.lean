import NodeKeeper.Decimal.Shortest

/-!
# Written doubles

The two written forms of a double: the shortest digits that read back, and a fixed number of
places.

## Main definitions

* `Decimal.Style` — what a format decides beyond the digits.
* `Decimal.plain` — the style of durations and numbers in messages and answers.
* `Decimal.text` — a double in its shortest digits.
* `Decimal.fixed` — a double rounded to so many places, a half going to the even neighbour.
-/

namespace NodeKeeper.Decimal

/-- What a format decides beyond the digits. -/
structure Style where
  /-- The least power of ten of the first digit that is written positionally. -/
  positionalFrom : Int
  /-- The least power of ten of the first digit that is no longer written positionally. -/
  positionalBelow : Int
  /-- The fewest digits of a written exponent. -/
  exponentWidth : Nat
  nan : String
  infinity : String

/-- Numbers from `0.0001` to below `1e16` are positional with at least one place, the exponent of
all others has a sign and at least two digits. -/
def plain : Style := ⟨-4, 16, 2, "nan", "inf"⟩

/-- The digits of a number with zeros in front up to a width. -/
def padded (width n : Nat) : List Char :=
  let ds := Nat.toDigits 10 n
  List.replicate (width - ds.length) '0' ++ ds

/-- The digits `ds` with the point after the first `whole` of them, with zeros where digits are
missing and at least one digit on either side. -/
def positional (ds : List Char) (whole : Int) : List Char :=
  if whole ≤ 0 then '0' :: '.' :: List.replicate (-whole).toNat '0' ++ ds
  else
    let front := ds.take whole.toNat
    let zeros := List.replicate (whole.toNat - front.length) '0'
    let back := ds.drop whole.toNat
    front ++ zeros ++ '.' :: (if back.isEmpty then ['0'] else back)

/-- The digits `ds` with a point after the first, and the power of ten of the first digit. -/
def scientific (style : Style) (ds : List Char) (power : Int) : List Char :=
  let tail := ds.drop 1
  let sign := if power < 0 then '-' else '+'
  ds.take 1 ++ (if tail.isEmpty then [] else '.' :: tail) ++
    'e' :: sign :: padded style.exponentWidth power.natAbs

/-- A decimal in a style. -/
def layout (style : Style) (d : Decimal) : List Char :=
  let ds := Nat.toDigits 10 d.coefficient
  let whole := ds.length + d.exponent
  if style.positionalFrom < whole && whole ≤ style.positionalBelow then positional ds whole
  else scientific style ds (whole - 1)

/-- The sign of a negative number. -/
def signed (negative : Bool) (cs : List Char) : String :=
  String.ofList (if negative then '-' :: cs else cs)

/-- A double in a style, with the fewest digits that read back as it. -/
def write (style : Style) : Binary → String
  | .nan => style.nan
  | .infinite negative => signed negative style.infinity.toList
  | .finite negative 0 _ => signed negative (layout style ⟨0, 0⟩)
  | .finite negative significand exponent =>
    signed negative (layout style (shortest significand exponent))

/-- A double in the style of messages and answers. -/
def text (x : Float) : String := write plain (.ofFloat x)

/-- The quotient rounded to the nearest number, a half to the even one. -/
def roundDiv (num den : Nat) : Nat :=
  let q := num / den
  let r := num % den
  if den < 2 * r || (2 * r == den && q % 2 == 1) then q + 1 else q

/-- A double rounded to so many places (at least one); its exact value decides, and a half goes to
the even neighbour. A zero keeps the sign of what was rounded. -/
def writeFixed (style : Style) (places : Nat) : Binary → String
  | .nan => style.nan
  | .infinite negative => signed negative style.infinity.toList
  | .finite negative significand exponent =>
    let scale := Nat.pow 10 places
    let n := roundDiv ((significand * scale) <<< exponent.toNat) (1 <<< (-exponent).toNat)
    signed negative (Nat.toDigits 10 (n / scale) ++ '.' :: padded places (n % scale))

/-- A double rounded to so many places. -/
def fixed (places : Nat) (x : Float) : String := writeFixed plain places (.ofFloat x)

end NodeKeeper.Decimal
