/-!
# Texts as bytes

A text that comes as bytes does not say how it is encoded. The bytes of its first characters give
the encoding away, as long as these are plain ASCII: what matters is where the bytes that are zero
stand.

## Main definitions

* `Text.Encoding` — the encodings.
* `Text.Encoding.guess` — the encoding of some bytes.
* `Text.Encoding.decode?` — the text of some bytes.

## Implementation notes

A surrogate without its partner stands for no character and is read as the replacement character.
-/

namespace NodeKeeper.Text

/-- How a text is written in bytes: in units of one, two or four bytes. Larger units come with the
greater byte in front or behind. -/
inductive Encoding where
  | utf8
  | utf16 (greaterFirst : Bool)
  | utf32 (greaterFirst : Bool)
deriving DecidableEq, Repr

namespace Encoding

/-- The encoding of some bytes, and the bytes without the mark that may stand in front. -/
def guess (bytes : List UInt8) : Encoding × List UInt8 :=
  match bytes with
  | 0 :: 0 :: 0xfe :: 0xff :: rest => (utf32 true, rest)
  | 0xff :: 0xfe :: 0 :: 0 :: rest => (utf32 false, rest)
  | 0xfe :: 0xff :: rest => (utf16 true, rest)
  | 0xff :: 0xfe :: rest => (utf16 false, rest)
  | 0xef :: 0xbb :: 0xbf :: rest => (utf8, rest)
  | 0 :: 0 :: _ :: _ :: _ => (utf32 true, bytes)
  | 0 :: _ :: _ :: _ :: _ => (utf16 true, bytes)
  | _ :: 0 :: 0 :: 0 :: _ => (utf32 false, bytes)
  | _ :: 0 :: _ :: _ :: _ => (utf16 false, bytes)
  | [0, _] => (utf16 true, bytes)
  | [_, 0] => (utf16 false, bytes)
  | _ => (utf8, bytes)

/-- The units of two bytes. A single byte is no unit. -/
def pairs? (greaterFirst : Bool) : List UInt8 → Option (List Nat)
  | [] => some []
  | a :: b :: rest =>
    let unit := if greaterFirst then a.toNat * 256 + b.toNat else b.toNat * 256 + a.toNat
    (pairs? greaterFirst rest).map (unit :: ·)
  | [_] => none

/-- The units of four bytes. -/
def quads? (greaterFirst : Bool) (bytes : List UInt8) : Option (List Nat) :=
  (pairs? greaterFirst bytes).bind join
where
  /-- Joins units of two bytes. -/
  join : List Nat → Option (List Nat)
    | [] => some []
    | a :: b :: rest =>
      let unit := if greaterFirst then a * 65536 + b else b * 65536 + a
      (join rest).map (unit :: ·)
    | [_] => none

/-- The first of two units for one character. -/
def isHigh (n : Nat) : Bool := 0xd800 ≤ n && n < 0xdc00

/-- The second of two units for one character. -/
def isLow (n : Nat) : Bool := 0xdc00 ≤ n && n < 0xe000

/-- The character of a code point. -/
def character (n : Nat) : Char := if isHigh n || isLow n then '\ufffd' else Char.ofNat n

/-- The characters of units of two bytes. -/
def fromPairs : List Nat → List Char
  | [] => []
  | [n] => [character n]
  | a :: b :: rest =>
    if isHigh a && isLow b then
      Char.ofNat (0x10000 + (a - 0xd800) * 0x400 + (b - 0xdc00)) :: fromPairs rest
    else character a :: fromPairs (b :: rest)

/-- The text of some bytes, if they are a text. -/
def decode? (e : Encoding) (bytes : List UInt8) : Option String :=
  match e with
  | utf8 => String.fromUTF8? ⟨bytes.toArray⟩
  | utf16 greaterFirst => (pairs? greaterFirst bytes).map fun us => String.ofList (fromPairs us)
  | utf32 greaterFirst =>
    match quads? greaterFirst bytes with
    | some us =>
      if us.all (· < 0x110000) then some (String.ofList (us.map character)) else none
    | none => none

end Encoding

/-- The text of some bytes, in the encoding that they suggest. -/
def ofBytes? (bytes : List UInt8) : Option String :=
  let (e, rest) := Encoding.guess bytes
  e.decode? rest

end NodeKeeper.Text
