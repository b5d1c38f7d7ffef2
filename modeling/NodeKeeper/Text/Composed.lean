import NodeKeeper.Text.Mark

/-!
# Composed texts

Some characters say the same as two others in succession, a letter and a mark mostly. A text is
composed if it uses the single character wherever it can, and has its marks in order. Only the
characters that names of hosts may have are listed.

## Main definitions

* `Text.parts?`, `Text.union?` — the two characters that a character stands for, and the reverse.
* `Text.composed` — the composed form of a text.
* `Text.isComposed` — whether a text is in that form.
-/

namespace NodeKeeper.Text

/-- For the second of two characters, each first one with the character that stands for both, to
the base 36. -/
def compositionTable : List (Nat × List String) := [
    (0x300,
      ["2p 68 2t 6g 2x 6k 32 e1 33 6q 39 6x 3b 60x 3d 643 6a 61z 6i 62p 6s 637 70 d8 77 629 7n",
       "5xx 99 5zl bl 63h c0 63v q9 67k qd 67m qf 67o qh 67q qn 67s qt 67u qx 67w qy 6aa qz",
       "6aq tx uo u0 v1 64g 64i 64h 64j 64w 64y 64x 64z 65c 65e 65d 65f 65s 65u 65t 65v 668",
       "66a 669 66b 66o 66q 66p 66r 674 676 675 677"]),
    (0x301,
      ["2p 69 2r 7b 2t 6h 2v dx 2x 6l 2z 5yp 30 8q 31 5z3 32 90 33 6r 34 5zp 36 9h 37 9n 39 6y",
       "3b 60z 3d 71 3e ai 6a 61x 6d e3 6e e5 6f 5xl 6i 62n 6n 5yn 6s 635 6t 5zh 6w e7 70 d4",
       "77 627 7n 5xz 99 5zn a1 60p bl 63f c0 63t q9 q4 qd q5 qf q6 qh q7 qn r0 qt r1 qx r2 qy",
       "pc qz q8 tv ur u2 v0 64g 64k 64h 64l 64w 650 64x 651 65c 65g 65d 65h 65s 65w 65t 65x",
       "668 66c 669 66d 66o 66s 66p 66t 674 678 675 679"]),
    (0x302,
      ["2p 6a 2r 7d 2t 6i 2v 7x 2w 85 2x 6m 2y 8l 33 6s 37 9p 39 6z 3b ad 3d af 3e 61d 61t 625",
       "62h 62v 631 63d"]),
    (0x303,
      ["2p 6b 2t 62l 2x 89 32 6p 33 6t 39 a1 3a 60t 3d 649 6a 623 6i 62t 6s 63b 77 62d bl 63l",
       "c0 63z"]),
    (0x304,
      ["2p 75 2t 7n 2v 5y9 2x 8b 33 99 39 a3 3d fn 6c db 6e df 6t fh 6u ff 70 d2 dn dp fb dd",
       "fj fl q9 69d qh 6a9 qt 6ap u0 yr ub z3 5yv 5yx 5zv 5zx"]),
    (0x306,
      ["2p 77 2t 7p 2v 7z 2x 8d 33 9b 39 a5 fd 5y5 q9 69c qh 6a8 qt 6ao ts y9 tx yf ty xu u0",
       "u1 ub v2 61t 62f"]),
    (0x307,
      ["2p fb 2q 5xf 2r 7f 2s 5xn 2t 7r 2u 5y7 2v 81 2w 5yb 31 5z5 32 5z9 33 fj 34 5zr 36 5zt",
       "37 601 38 60b 3b 613 3c 617 3d 61b 3e ak 9n 605 9t 607 603 609"]),
    (0x308,
      ["2p 6c 2t 6j 2w 5yf 2x 6n 33 6u 38 61j 39 70 3b 611 3c 619 3d 73 6t 5zj a3 60r qh qy qt",
       "qz ts yb tx up ty yl tz yn u0 yt u6 yv ub z5 uf z9 uj zd ul z1 uu uv yh yj yx yz"]),
    (0x309,
      ["2p 61v 2t 62j 2x 62x 33 633 39 63r 3d 647 6a 621 6i 62r 6s 639 77 62b bl 63j c0 63x"]),
    (0x30a, ["2p 6d 39 a7 3b 61k 3d 61l"]),
    (0x30b, ["33 9d 39 a9 ub z7"]),
    (0x30c,
      ["2p cu 2r 7h 2s 7j 2t 7v 2v dj 2w f3 2x cw 2y ds 2z dl 30 8u 32 94 33 cy 36 9l 37 9t 38",
       "9x 39 d0 3e am 70 d6 ia dr"]),
    (0x30f, ["2p e9 2t ed 2x eh 33 el 36 ep 39 et vp vr"]),
    (0x311, ["2p eb 2t ef 2x ej 33 en 36 er 39 ev"]),
    (0x313, ["q9 64g qd 64w qf 65c qh 65s qn 668 qp 6as qt 66o qx 674"]),
    (0x314, ["q9 64h qd 64x qf 65d qh 65t qn 669 qp 6at qt 66p qx 675"]),
    (0x31b, ["33 bl 39 c0"]),
    (0x323,
      ["2p 61t 2q 5xh 2s 5xp 2t 62h 2w 5yd 2x 62z 2z 5yr 30 5yv 31 5z7 32 5zb 33 631 36 5zv 37",
       "603 38 60d 39 63p 3a 60v 3b 615 3d 645 3e 61f bl 63n c0 641"]),
    (0x324, ["39 60j"]),
    (0x325, ["2p 5xd"]),
    (0x326, ["37 ex 38 ez"]),
    (0x327, ["2r 6f 2s 5xt 2t fd 2v 83 2w 5yh 2z 8n 30 8s 32 92 36 9j 37 9r 38 9v"]),
    (0x328, ["2p 79 2t 7t 2x 8f 33 dn 39 ab"]),
    (0x32d, ["2s 5xv 2t 5y1 30 5z1 32 5zf 38 60h 39 60n"]),
    (0x32e, ["2w 5yj"]),
    (0x330, ["2t 5y3 2x 5yl 39 60l"]),
    (0x331, ["2q 5xj 2s 5xr 2w 61i 2z 5yt 30 5yz 32 5zd 36 5zz 38 60f 3e 61h"]),
    (0x342,
      ["q9 69i qf 69y qh 6ae qt 6au qx 6ba qy 6af qz 6av 64g 64m 64h 64n 65c 65i 65d 65j 65s",
       "65y 65t 65z 66o 66u 66p 66v 674 67a 675 67b"]),
    (0x653, ["17r 17m"]),
    (0x654, ["17r 17n 18o 17o 18q 17q 1c1 1c2 1ci 1cj 1cl 1c0"]),
    (0x655, ["17r 17p"]),
    (0x93c, ["1t4 1t5 1tc 1td 1tf 1tg"]),
    (0x9be, ["1xj 1xn"]),
    (0x9d7, ["1xj 1xo"]),
    (0xb3e, ["287 28b"]),
    (0xb56, ["287 288"]),
    (0xb57, ["287 28c"]),
    (0xbbe, ["2bq 2bu 2br 2bv"]),
    (0xbd7, ["2aa 2ac 2bq 2bw"]),
    (0xc56, ["2fa 2fc"]),
    (0xcc2, ["2iu 2iy"]),
    (0xcd5, ["2in 2io 2iu 2iv 2iy 2iz"]),
    (0xcd6, ["2iu 2iw"]),
    (0xd3e, ["2me 2mi 2mf 2mj"]),
    (0xd57, ["2me 2mk"]),
    (0xdca, ["2qh 2qi 2qk 2ql"]),
    (0xdcf, ["2qh 2qk"]),
    (0xddf, ["2qh 2qm"]),
    (0x102e, ["36t 36u"]),
    (0x1b35,
      ["5c5 5c6 5c7 5c8 5c9 5ca 5cb 5cc 5cd 5ce 5ch 5ci 5dm 5dn 5do 5dp 5dq 5ds 5dr 5dt 5du",
       "5dv"]),
    (0x3099,
      ["9ja 9lg 9jf 9jg 9jh 9ji 9jj 9jk 9jl 9jm 9jn 9jo 9jp 9jq 9jr 9js 9jt 9ju 9jv 9jw 9jx",
       "9jy 9jz 9k0 9k1 9k2 9k4 9k5 9k6 9k7 9k8 9k9 9kf 9kg 9ki 9kj 9kl 9km 9ko 9kp 9kr 9ks",
       "9lp 9lq 9ly 9o4 9m3 9m4 9m5 9m6 9m7 9m8 9m9 9ma 9mb 9mc 9md 9me 9mf 9mg 9mh 9mi 9mj",
       "9mk 9ml 9mm 9mn 9mo 9mp 9mq 9ms 9mt 9mu 9mv 9mw 9mx 9n3 9n4 9n6 9n7 9n9 9na 9nc 9nd",
       "9nf 9ng 9nz 9o7 9o0 9o8 9o1 9o9 9o2 9oa 9od 9oe"]),
    (0x309a,
      ["9kf 9kh 9ki 9kk 9kl 9kn 9ko 9kq 9kr 9kt 9n3 9n5 9n6 9n8 9n9 9nb 9nc 9ne 9nf 9nh"]),
    (0x110ba, ["1huh 1hui 1huj 1huk 1hut 1huz"]),
    (0x11127, ["1hyp 1hym 1hyq 1hyn"]),
    (0x1133e, ["1idj 1idn"]),
    (0x11357, ["1idj 1ido"]),
    (0x114b0, ["1int 1inw"]),
    (0x114ba, ["1int 1inv"]),
    (0x114bd, ["1int 1iny"]),
    (0x115af, ["1iuw 1iuy 1iux 1iuz"]),
    (0x11930, ["1jjp 1jjs"])
  ]

/-- Two numbers at a time. -/
def pairUp : List Nat → List (Nat × Nat)
  | a :: b :: rest => (a, b) :: pairUp rest
  | _ => []

/-- The characters that stand for two: first, second, and both. -/
def compositions : List (Char × Char × Char) :=
  compositionTable.flatMap fun (second, rows) =>
    (pairUp (rows.flatMap numbersOf)).map fun (first, both) =>
      (Char.ofNat first, Char.ofNat second, Char.ofNat both)

/-- The two characters that a character stands for. -/
def parts? (c : Char) : Option (Char × Char) :=
  (compositions.find? fun p => p.2.2 == c).map fun p => (p.1, p.2.1)

/-- The character that stands for two. -/
def union? (a b : Char) : Option Char :=
  (compositions.find? fun p => p.1 == a && p.2.1 == b).map fun p => p.2.2

/-- The characters that a character stands for. No chain of first parts has more than four. -/
def decompose (c : Char) : List Char :=
  go 4 c
where
  /-- Taken apart so many times at most. -/
  go : Nat → Char → List Char
    | 0, c => [c]
    | more + 1, c =>
      match parts? c with
      | some (a, b) => go more a ++ [b]
      | none => [c]

/-- Puts a mark in its place among the marks at the end of a text, which comes in reverse. -/
def putMark (c : Char) : List Char → List Char
  | [] => [c]
  | d :: rest =>
    if combiningClass c < combiningClass d && combiningClass c ≠ 0 then d :: putMark c rest
    else c :: d :: rest

/-- Puts the marks behind each character in order. -/
def orderMarks (cs : List Char) : List Char := (cs.foldl (fun seen c => putMark c seen) []).reverse

/-- A text being composed: the last character that is no mark, and what follows it in reverse. -/
structure Composing where
  before : List Char := []
  base : Option Char := none
  marks : List Char := []

/-- Adds a character. It is united with the base if no mark of its class or none at all stands
between them. -/
def Composing.add (s : Composing) (c : Char) : Composing :=
  let open? :=
    match s.marks with
    | [] => true
    | d :: _ => combiningClass d < combiningClass c
  match s.base.bind fun b => if open? then union? b c else none with
  | some both => { s with base := some both }
  | none =>
    if combiningClass c = 0 then ⟨s.marks ++ s.base.toList ++ s.before, some c, []⟩
    else { s with marks := c :: s.marks }

/-- The composed form of a text. -/
def composed (cs : List Char) : List Char :=
  let s := (orderMarks (cs.flatMap decompose)).foldl Composing.add {}
  (s.marks ++ s.base.toList ++ s.before).reverse

/-- A text is composed. -/
def isComposed (cs : List Char) : Bool := composed cs == cs

end NodeKeeper.Text
