/-!
# Ranges of code points

A property of characters is a set of code points, which mostly come in ranges. A table of ranges is
kept as rows of text, so that it stays short.

## Main definitions

* `Ranges` — a set of code points, and `Ranges.has` — whether a character belongs to it.
* `Ranges.ofRows` — the set that some rows of text stand for.

## Implementation notes

The numbers of a row are written with digits and letters, to the base 36, and come in pairs: how
many code points lie in front of a range, behind the range before, and how many it has.
-/

namespace NodeKeeper.Text

/-- A set of code points: the first and the last one of each range, in increasing order. -/
structure Ranges where
  spans : List (Nat × Nat)
deriving Repr

/-- The value of a digit or letter. -/
def digitOrLetter (c : Char) : Nat := if c.isDigit then c.toNat - 48 else c.toNat - 87

/-- The numbers of a text, to the base 36, with spaces between them. -/
def numbersOf (s : String) : List Nat :=
  let (numbers, last) := s.toList.foldl
    (fun (numbers, n) c =>
      if c == ' ' then (n :: numbers, 0) else (numbers, 36 * n + digitOrLetter c)) ([], 0)
  (last :: numbers).reverse

namespace Ranges

/-- The ranges behind a code point, by their distances and sizes. -/
def spansFrom : Nat → List Nat → List (Nat × Nat)
  | n, gap :: size :: rest => (n + gap, n + gap + size - 1) :: spansFrom (n + gap + size) rest
  | _, _ => []

/-- The set that some rows of text stand for. -/
def ofRows (rows : List String) : Ranges := ⟨spansFrom 0 (rows.flatMap numbersOf)⟩

/-- A character belongs to a set. -/
def has (r : Ranges) (c : Char) : Bool := r.spans.any fun (first, last) =>
  first ≤ c.toNat && c.toNat ≤ last

end Ranges

end NodeKeeper.Text
