import NodeKeeper.Text.Mark

/-!
# Directions of writing

Some scripts are written from right to left. Only the characters that names of hosts may have are
listed, as in version 14 of the character database; all that are not listed are written from left
to right.

## Main definitions

* `Text.Direction` — the directions of characters.
* `Text.direction` — the direction of a character.
* `Text.isOneWay` — the characters of a text go together.
-/

namespace NodeKeeper.Text

/-- The directions of characters. -/
inductive Direction where
  | leftToRight
  | rightToLeft
  | digit
  | arabicDigit
  | neutral
  /-- A mark goes with the character in front of it. -/
  | mark
deriving DecidableEq, Repr

/-- Letters that are written from right to left. -/
def rightToLeftLetters : Ranges := Ranges.ofRows
    ["15c r 4 6 17 w 1 a z 2 1 4 4 2j 1 1 f 2 7 2 a 6 g 1 1 u t 2h b 1 e 17 9 2 a m 4 1 9 1 3",
     "1 n p 7 b 5 o 1 6 h 16 1cix 1 1vw 6 2 1 1 18 1 2 3 1 2 n a n 9 v 1t j 1 2 a m a q 1y 1k",
     "6 2 1s 1 f 4 1 3 1 t 16 t 3 t z 8 1 s r 1i a m a j d i 32 21 3b 1f d 10 9o 16 6 2 26 t a",
     "1 8 m 16 i 1a l r n 16o9 5h 2l y 7 1 4 a"]

/-- Characters that are written either way. -/
def neutralCharacters : Ranges := Ranges.ofRows
    ["19 1 3t 1 e9 2 b a s 1 3s 1 5na 2 2sh 1 jv 1 n7n 1 47 9 2w 1"]

/-- Digits that are always written from left to right. -/
def leftToRightDigits : Ranges := Ranges.ofRows
    ["1c a 1bq a"]

/-- Digits that are written like those of Arabic. -/
def arabicDigits : Ranges := Ranges.ofRows
    ["19c a 1fwm a"]

/-- Marks that count as letters. -/
def independentMarks : List Nat := [0xcbf, 0xcc6, 0x11a07, 0x11a08, 0x11c3f]

/-- The direction of a character. -/
def direction (c : Char) : Direction :=
  if rightToLeftLetters.has c then .rightToLeft
  else if leftToRightDigits.has c then .digit
  else if arabicDigits.has c then .arabicDigit
  else if neutralCharacters.has c then .neutral
  else if isNonspacing c && !independentMarks.contains c.toNat then .mark
  else .leftToRight

/-- The last direction apart from marks is one that a text may end with. -/
def endsWith (allowed : List Direction) (ds : List Direction) : Bool :=
  match ds.reverse.dropWhile (· == .mark) with
  | d :: _ => allowed.contains d
  | [] => false

/-- The directions of a text that is written from right to left. -/
def isRightToLeft (ds : List Direction) : Bool :=
  !ds.contains .leftToRight && endsWith [.rightToLeft, .digit, .arabicDigit] ds &&
    !(ds.contains .digit && ds.contains .arabicDigit)

/-- The directions of a text that is written from left to right. -/
def isLeftToRight (ds : List Direction) : Bool :=
  !ds.contains .rightToLeft && !ds.contains .arabicDigit && endsWith [.leftToRight, .digit] ds

/-- The characters of a text go together: if any of them are written from right to left, the first
one decides on the direction of all. -/
def isOneWay (cs : List Char) : Bool :=
  let ds := cs.map direction
  if !ds.contains .rightToLeft && !ds.contains .arabicDigit then true
  else
    match ds.head? with
    | some .rightToLeft => isRightToLeft ds
    | some .leftToRight => isLeftToRight ds
    | _ => false

end NodeKeeper.Text
