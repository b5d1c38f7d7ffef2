import NodeKeeper.Text.Mark

/-!
# Joined letters

In some scripts a letter is joined to the one in front of it, to the one behind it, or to both;
marks between them do not matter. Only the characters that names of hosts may have are listed.

## Main definitions

* `Text.joinsAhead`, `Text.joinsBack` — letters that are joined to the next and to the last one.
* `Text.isTransparent` — characters that do not matter.
-/

namespace NodeKeeper.Text

/-- Letters that are joined both ways. -/
def joinedBothWays : Ranges := Ranges.ofRows
    ["17k 1 5 1 1 1 1 5 4 d 1 7 1 2 z 2 9 f i 12 1 2 9 1 1 1 1 2 14 3 2 1 i 3 5 4 1 9 1 1 1 1",
     "1 2 v b 3 f 2 4 1 1 2 3 2 6 22 x 2e 5 2 1 1 a 1 1 a 1 1 4 2 1 t 1 2 5 i a 5 2 2 6 1 f",
     "313 2h e y 1 1 sd1 1e jf2 5 e 4 1 5 1 3 4f 1 1 1 3 3 1 2 1 1 2 1 a8 x 1 1 ek 3 1 h 17 4",
     "2 c 1a 1 1 2 4 1 2 2 1 2 1 1 2 1 16xp y"]

/-- Letters that are joined only to the next one. -/
def joinedAhead : Ranges := Ranges.ofRows
    ["x9u 1 jfe 1 9 1 fc 1"]

/-- Letters that are joined only to the last one. -/
def joinedBack : Ranges := Ranges.ofRows
    ["17m 4 1 1 1 1 5 4 l 1 14 3 k i 12 1 2 9 1 1 1 1 2 2 1 1 o 2 w 1 4 5 4 1 9 1 1 1 1 1 2 1",
     "t 1 b 3 f 2 4 1 1 2 3 2 5i 1 5 2 1 1 a 1 1 3 e 1 1 2 5 j b 1 r 3 1 1 2 2 6 1 1eyz 1 1 1",
     "1 2 3 5 a 1 3 1 2 1 4c 1 1 3 3 1 2 1 1 2 1 1 b4 1 eo 1 1s 2 1q 3 2 2 2 1 4 2"]

/-- A letter that is joined to the next one. -/
def joinsAhead (c : Char) : Bool := joinedBothWays.has c || joinedAhead.has c

/-- A letter that is joined to the last one. -/
def joinsBack (c : Char) : Bool := joinedBothWays.has c || joinedBack.has c

/-- A character between letters that does not matter to them. -/
def isTransparent (c : Char) : Bool :=
  c.toNat = 0x1e94b || (isNonspacing c && c.toNat ≠ 0x1171e)

end NodeKeeper.Text
