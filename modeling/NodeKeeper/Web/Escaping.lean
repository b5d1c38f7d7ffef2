import NodeKeeper.Text.Quoted

/-!
# Escaped characters

Every part of an address may hold certain characters. Any other is given by the hexadecimal digits
of its bytes, each behind a percent sign, which every part may hold.

## Main definitions

* `Web.escape` — a part with its characters escaped.
* `Web.pathChar`, `Web.queryChar`, `Web.fragmentChar`, `Web.userChar`, `Web.hostChar` — what each
  part may hold.
-/

namespace NodeKeeper.Web

/-- The bytes of a character, each as a percent sign and two digits. -/
def percentBytes (c : Char) : List Char :=
  (String.singleton c).toUTF8.toList.flatMap fun b =>
    '%' :: (Text.hexDigits 2 b.toNat).map Char.toUpper

/-- Escapes the characters that a part may not hold. -/
def escape (allowed : Char → Bool) (cs : List Char) : List Char :=
  cs.flatMap fun c => if allowed c then [c] else percentBytes c

/-- A visible character that is none of the given ones. -/
def visibleExcept (others : String) (c : Char) : Bool :=
  0x20 < c.toNat && c.toNat < 0x7f && !others.toList.contains c

/-- What a path may hold. -/
def pathChar : Char → Bool := visibleExcept "\"#<>?`\x7b\x7d"

/-- What a query may hold. -/
def queryChar : Char → Bool := visibleExcept "\"#<>"

/-- What a fragment may hold. -/
def fragmentChar : Char → Bool := visibleExcept "\"<>`"

/-- What a user may hold. -/
def userChar : Char → Bool := visibleExcept "\"#<>?`\x7b\x7d/;=@[\\]^|"

/-- What a host may hold. -/
def hostChar : Char → Bool := visibleExcept "#/:<>?@[]^"

end NodeKeeper.Web
