import NodeKeeper.Text.Printable

/-!
# Quoted texts

The written form of a text inside a message: between quotes, with what cannot be shown escaped.
The quote is a single one, unless the text holds a single quote and no double quote.

## Main definitions

* `Text.quoteFor` — the quote that a text is written with.
* `Text.escape` — the written form of one character.
* `Text.quoted` — the written form of a text.
-/

namespace NodeKeeper.Text

/-- The lower-case hexadecimal digits of a number, at least `width` of them. -/
def hexDigits (width n : Nat) : List Char :=
  let ds := Nat.toDigits 16 n
  List.replicate (width - ds.length) '0' ++ ds

/-- A text with a single quote and no double quote stands between double quotes, every other
between single ones. -/
def quoteFor (cs : List Char) : Char :=
  if cs.contains '\'' && !cs.contains '"' then '"' else '\''

/-- The written form of a character: the quote and the backslash are preceded by a backslash, tab
and the two line ends have letters of their own, a printable character stands for itself, and any
other is given by its code point in two, four or eight hexadecimal digits. -/
def escape (quote c : Char) : List Char :=
  if c = quote || c = '\\' then ['\\', c]
  else if c = '\n' then ['\\', 'n']
  else if c = '\r' then ['\\', 'r']
  else if c = '\t' then ['\\', 't']
  else if isPrintable c then [c]
  else if c.toNat ≤ 0xff then '\\' :: 'x' :: hexDigits 2 c.toNat
  else if c.toNat ≤ 0xffff then '\\' :: 'u' :: hexDigits 4 c.toNat
  else '\\' :: 'U' :: hexDigits 8 c.toNat

/-- The written form of a text. -/
def quoted (s : String) : String :=
  let cs := s.toList
  let quote := quoteFor cs
  String.ofList (quote :: cs.flatMap (escape quote) ++ [quote])

end NodeKeeper.Text
