import NodeKeeper.Text.Ranges

/-!
# Scripts

The characters of some scripts. Only those that names of hosts may have are listed.

## Main definitions

* `Text.greek`, `Text.hebrew`, `Text.eastAsian` — the characters of a script.
-/

namespace NodeKeeper.Text

/-- The characters of Greek. -/
def greek : Ranges := Ranges.ofRows
    ["oh 1 1 1 1 1 1 1 3 3 i 1 r z 8 1 1 1 1 1 1 1 1 1 1 1 h 1 4 1 2 2 4yx 5 d1 8 8 6 a 8 8 8",
     "8 6 a 8 8 8 8 1 1 1 1 1 1 1 1 1 1 1 1 1 1f 2 4 1 f 1 9 3 3 2 8 3 1 4 e 1 rji 1"]

/-- The characters of Hebrew. -/
def hebrew : Ranges := Ranges.ofRows
    ["13l 19 1 1 1 2 1 2 1 1 8 r 4 6 1cfd 1"]

/-- The characters of Hiragana, Katakana and Han. -/
def eastAsian : Ranges := Ranges.ofRows
    ["9hh 1 1 1 1l 2e 6 2 2 2i 2 2 6p g e8 534 1s g74 hse 2 1 1 1 2 a 1 1 1 1 2 2 3 n95 1 c 2",
     "cn2 4 1 7 1 2 1 83 19 3 h 4 fiw wyo w 37d 7 66 2 4g2 e 5rl 3z3 3t7"]

end NodeKeeper.Text
