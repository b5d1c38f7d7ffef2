import NodeKeeper.Text.Ranges

/-!
# Combining marks

Marks that belong to the character in front of them. The class of a mark tells where it stands; the
order of marks of different classes does not matter. Only the marks that names of hosts may have are
listed, as in version 14 of the character database.

## Main definitions

* `Text.isMark`, `Text.isNonspacing` — marks, and those that take no place of their own.
* `Text.combiningClass` — the class of a mark; all other characters have class zero.
-/

namespace NodeKeeper.Text

/-- The marks. -/
def marks : Ranges := Ranges.ofRows
    ["lc 1s 2 1 3 9 1 w 7n 5 7d 19 1 1 1 2 1 2 1 1 20 b 1c l g 1 2t 7 2 6 2 2 1 4 z 1 u r 2j b",
     "1m 9 9 1 o 4 1 9 1 3 1 5 17 3 1o 8 16 o 1 x 1i 3 1 i 1 7 a 2 t 3 1k 1 1 7 2 2 2 3 9 1 a",
     "2 q 1 2 3 1k 1 1 5 4 2 2 3 3 1 u 2 3 1 b 3 1k 1 1 8 1 3 1 3 k 2 m 6 1 3 1k 1 1 7 2 2 2 3",
     "7 3 a 2 u 1 1n 5 3 3 1 4 9 1 14 5 1j 1 1 7 1 3 1 4 7 2 b 2 t 3 1k 1 1 7 1 3 1 4 7 2 b 2",
     "s 4 1j 2 1 7 1 3 1 4 9 1 a 2 t 3 1y 1 4 6 1 1 1 8 i 2 1p 1 2 7 c 8 2q 1 2 9 b 6 22 2 r 1",
     "1 1 1 1 4 2 1d 2 1 1 5 7 1 3 1 2 5 6 1 4 1 4 1 4 1 4 1 4 1 c 1 3 9 1 2s k n 4 4 3 1 3 2",
     "7 3 4 d c 1 1 a 4 jj 3 qa 4 s 3 t 2 u 2 1u u 9 1 4n 2 y 1 3a c 4 c 63 5 1l a 1 t 2 1 1c",
     "e 1 g 1d 5 1b h 12 9 c 3 u d 1k e 1c k 48 3 1 l 4 1 6 1 2 3 5i 1s 2y7 3 3x 1 2o w fe 4",
     "2z 2 n9w 1 4 a w 2 28 2 7k 1 3 1 4 1 n 5 4 1 2b 2 1e i q i d 1 12 8 p d 18 4 1b e 10 1",
     "1v e c 1 8 2 19 3 1e 1 1 3 2 2 5 2 1 1 15 5 5 2 6k 8 1 2 fn4 1 ld g r1 1 6a 1 45 5 1ae 3",
     "1 2 5 4 14 3 4 1 4l 2 fx 4 ar 2 49 b 1d 4 3e 3 1h f 15 1 2 2 a 4 19 b 7 1 1p 3 10 e g 2",
     "18 1 c 3 1c e 8 4 1 2 2k c 6 1 4g c l 4 1j 2 1 7 2 2 2 3 9 1 a 2 2 7 3 5 5c i n 1 29 k",
     "6j 7 2 9 r 2 2a h 2y d 2t f 74 f 6t 6 1 2 2 4 1 1 1 2 3x 7 2 7 3 1 s a 14 7 1 4 8 1 9 b",
     "1a g b9 8 1 8 2a m 1 e 3e 6 3 1 1 2 1 7 1 1 1u 5 1 2 1 5 9n 4 f09 5 1n 7 t4 1 1 1j 7 4",
     "29 1 b 2 f57 2 3mp 1a 2 n 249 1j 4 1e 8 1 e 1 m 5 1 f 11s 7 1 h 2 7 1 2 1 5 79 7 af 1 1p",
     "4 15s 7 31 7"]

/-- The marks that take no place of their own. -/
def nonspacingMarks : Ranges := Ranges.ofRows
    ["lc 1s 2 1 3 9 1 w 7n 5 7d 19 1 1 1 2 1 2 1 1 20 b 1c l g 1 2t 7 2 6 2 2 1 4 z 1 u r 2j b",
     "1m 9 9 1 o 4 1 9 1 3 1 5 17 3 1o 8 16 o 1 w 1j 1 1 1 4 8 4 1 3 7 a 2 t 1 1m 1 4 4 8 1 k",
     "2 q 1 2 2 1l 1 4 2 4 2 2 3 3 1 u 2 3 1 b 2 1l 1 4 5 1 2 4 1 k 2 m 6 1 1 1m 1 2 1 1 4 8 1",
     "7 2 b 2 u 1 1p 1 c 1 1e 1 3 1 1j 1 1 3 5 3 1 4 7 2 b 2 t 1 1m 1 2 1 6 1 5 2 k 2 s 2 1l 2",
     "4 4 8 1 k 2 t 1 20 1 7 3 1 1 2i 1 2 7 c 8 2q 1 2 9 b 6 22 2 r 1 1 1 1 1 1j 2 1 1 5 5 1 1",
     "1 3 1 2 5 6 1 4 1 4 1 4 1 4 1 4 1 c 1 3 9 1 2u 4 1 6 1 2 2 2 p 2 4 3 g 4 d 1 2 2 6 1 f 1",
     "jj 3 qa 3 t 2 u 2 u 2 1v 7 8 1 2 b 9 1 4n 2 y 1 3a 3 4 2 9 1 6 3 63 2 2 1 1m 1 1 7 1 1 1",
     "1 2 8 6 a 2 1 1c e 1 g 1d 4 1c 1 1 5 1 1 5 1 14 9 c 2 w 4 2 2 1 3 1k 1 1 2 3 1 1 3 1m 8",
     "2 2 48 3 1 d 1 7 4 1 6 1 3 2 5i 1s 2y7 3 3x 1 2o w fe 4 2z 2 n9w 1 4 a w 2 28 2 7k 1 3 1",
     "4 1 p 2 5 1 47 2 q i d 1 12 8 p b 1a 3 1c 1 2 4 2 2 13 1 1v 6 2 2 2 2 c 1 8 1 1b 1 1f 1",
     "1 3 2 2 5 2 1 1 16 2 8 1 6m 1 2 1 4 1 fn4 1 ld g r1 1 6a 1 45 5 1ae 3 1 2 5 4 14 3 4 1",
     "4l 2 fx 4 ar 2 49 b 1d 4 3f 1 1i f 15 1 2 2 a 3 1d 4 2 2 7 1 1p 3 10 5 1 8 1q 1 c 2 1g 9",
     "a 4 2 1 2n 3 2 1 1 2 6 1 4g 1 3 8 l 2 1l 2 3 1 11 7 3 5 5f 8 2 3 1 1 n 1 2c 6 1 1 4 2 1",
     "2 6m 4 6 2 1 2 r 2 2d 8 2 1 1 2 2y 1 1 1 2 6 1 1 2t 3 2 4 1 5 77 9 1 2 74 2 1 1 4 1 40 4",
     "2 2 4 1 w a 14 6 2 4 8 1 9 6 2 3 1a d 1 2 ba 7 1 6 1 1 2a m 2 7 1 2 1 2 3e 6 3 1 1 2 1 7",
     "1 1 20 2 3 1 1 1 9n 2 f0b 5 1n 7 t4 1 1r 4 29 1 f5k 2 3mp 1a 2 n 249 1j 4 1e 8 1 e 1 m 5",
     "1 f 11s 7 1 h 2 7 1 2 1 5 79 7 af 1 1p 4 15s 7 31 7"]

/-- The marks by their classes. -/
def markClasses : List (Nat × Ranges) := [
    (1, ["ms 5 523 1 d 7 1avk 1 j3q 5 g4p 1"]),
    (6, ["20og 2"]),
    (7,
      ["1to 1 3j 1 3j 1 3j 1 3j 1 73 1 3j 1 oq 1 264 1 4x 1 28 1 ry3 1 kcm 1 54 1 2e 1 2z 1 4y",
       "1 29 2 7d 1 3g 1 70 1 6u 1 aq 1 7c 1 se 1 14av 1"]),
    (8, ["9ll 2"]),
    (9,
      ["1u5 1 3j 1 3j 1 3j 1 3j 1 3j 1 3j 1 3j 1 31 2 g 1 3g 1 33 1 3j 1 5l 1 50 2 1cp 2 u 1",
       "4d 1 i5 1 6b 1 2t 2 1y 2 3gr 1 o7a 1 11 1 47 1 3y 1 30 1 8l 1 6u 1 imp 1 16u 1 15 1 e",
       "1 1l 1 3d 2 3v 1 38 1 50 1 2q 1 6s 1 3j 1 70 1 3j 1 3a 1 38 1 7h 1 77 2 4h 1 2b 1 i 1",
       "29 1 bp 1 78 2 29 1"]),
    (10, ["14g 1"]),
    (11, ["14h 1"]),
    (12, ["14i 1"]),
    (13, ["14j 1"]),
    (14, ["14k 1"]),
    (15, ["14l 1"]),
    (16, ["14m 1"]),
    (17, ["14n 1"]),
    (18, ["14o 1 e 1"]),
    (19, ["14p 2"]),
    (20, ["14r 1"]),
    (21, ["14s 1"]),
    (22, ["14t 1"]),
    (23, ["14v 1"]),
    (24, ["14x 1"]),
    (25, ["14y 1"]),
    (26, ["1dlq 1"]),
    (27, ["18r 1 is 1"]),
    (28, ["18s 1 is 1"]),
    (29, ["18t 1 is 1"]),
    (30, ["17c 1 1h 1"]),
    (31, ["17d 1 1h 1"]),
    (32, ["17e 1 1h 1"]),
    (33, ["18x 1"]),
    (34, ["18y 1"]),
    (35, ["19s 1"]),
    (36, ["1e9 1"]),
    (84, ["2fp 1"]),
    (91, ["2fq 1"]),
    (103, ["2t4 2"]),
    (107, ["2tk 4"]),
    (118, ["2wo 2"]),
    (122, ["2x4 4"]),
    (129, ["31t 1"]),
    (130, ["31u 1 7 4 2 1"]),
    (132, ["31w 1"]),
    (202, ["m9 2 4 2 59j 1"]),
    (214, ["5vy 1"]),
    (216, ["m3 1 2e5 1"]),
    (218, ["5x6 1 3lb 1"]),
    (220,
      ["ly 4 2 5 2 4 2 b 5 4 a 3 3 2 4 4 2 2 fq 1 4 1 4 1 6 6 2 1 q 1 3z 2 5 1 2 1 3n 1 6 1 2",
       "1 1v 1 2 1 2 3 1 2 1 1 3 1 1 1 1 1 1 1 4p 1 a 1 2j 3 1p 3 1f 5 f 1 2 1 2 1 3 3 6 1 2 2",
       "2f 1 151 2 r 1 1 1 3y 1 5i 1 1pp 1 64 1 2u 1 1h 6 2 1 1 2 2 2 5 1 4h 1 a0 5 2 4 d 1 5w",
       "1 7 1 4 1 15 1 3 1 1 1 rhn 3 au 1 ghe 7 r3 1 6a 1 1f0 1 18 1 4r 1 v3 2 3 1 1 4 1e 1 1",
       "1 16x6 7"]),
    (222, ["13u 1 i 1 3uz 1 4j7 1"]),
    (228, ["14e 1 3qy 1 11p 2 3le 1"]),
    (230,
      ["lc l 14 3 2 1 3 1 3 3 3 3 4 1 3 1 7 d 7n 5 7e 4 1 3 2 6 6 2 1 2 2 1 k 1 23 8 1n 2 2 5",
       "1 2 3b 7 2 4 1 1 2 2 2 2 1v 1 1 2 1 2 3 1 2 1 1 3 1 1 1 1 1 1 1 2 4g 7 1 1 y 4 1 9 1 3",
       "1 5 2y 1 3 4 16 5 5 e 2 2 1 2 1 3 6 3 1 2 2 5 29 1 1 2 4p 1 137 2 2 2 r9 3 vx 1 9o 1",
       "64 1 2l 8 1f 5 6 2 4 2 2 5 1 4 4c 1 1 7 9o 3 7 2 4 1 j 1 3 2 5i 2 1 7 1 2 4 11 5 1 2 1",
       "2y8 3 6m w nsf 1 4 a w 2 28 2 dq i ce 1 1 2 3 2 5 2 1 1 ggu 7 7 2 11i 5 1as 1 14 1 4s",
       "1 fy 4 ar 2 4b 3 1 1 1h 1 1 1 aj 3 gz 7 3 5 6h 1 h5d 7 n2h 7 1 h 2 7 1 2 1 5 79 7 af 1",
       "1p 4 190 6"]),
    (232, ["lx 1 4 1 1p 1 599 1 3lh 1"]),
    (233, ["nw 1 2 1 2 1 595 1"]),
    (234, ["nx 2 1 2 57v 1"])
  ].map fun (number, rows) => (number, Ranges.ofRows rows)

/-- A mark. -/
def isMark (c : Char) : Bool := marks.has c

/-- A mark that takes no place of its own. -/
def isNonspacing (c : Char) : Bool := nonspacingMarks.has c

/-- The class of a character. -/
def combiningClass (c : Char) : Nat :=
  ((markClasses.find? fun p => p.2.has c).map Prod.fst).getD 0

end NodeKeeper.Text
