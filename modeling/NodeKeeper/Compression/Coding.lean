import NodeKeeper.Compression.Inflate
import NodeKeeper.Text.CharClass

/-!
# Codings of a body

The body of an answer may be compressed, more than once even. The names of the codings stand in a
header, in the order in which they were applied.

## Main definitions

* `Coding` — the codings, and `Coding.ofWord?` — the coding of a name.
* `Coding.decode` — the bytes behind a coding.
* `Coding.decodeAll` — the bytes behind the codings of a header.
-/

namespace NodeKeeper

/-- How bytes are compressed. -/
inductive Coding where
  /-- A stream in a frame that begins with two certain bytes. -/
  | framed
  /-- A stream, in a frame with a check sum or without any. -/
  | loose
deriving DecidableEq, Repr

namespace Coding

/-- The coding of a name. Any other name is passed over. -/
def ofWord? (word : String) : Option Coding :=
  [("gzip", framed), ("deflate", loose)].lookup word

/-- What is said about damaged bytes. -/
def complaint (reason : String) : String := s!"Error -3 while decompressing data: {reason}"

/-- The bytes behind a coding. No text begins with the two bytes of a frame, so that more than one
byte is always damaged there. -/
def decode (c : Coding) (bytes : List UInt8) : Except String (List UInt8) :=
  match c with
  | framed => if bytes.length < 2 then .ok [] else .error (complaint "incorrect header check")
  | loose =>
    match Compression.Inflate.zlib bytes with
    | .ok out => .ok out
    | .error _ => (Compression.Inflate.raw bytes).mapError complaint

/-- White space, or one of the signs that separate parts of a file. -/
def isBlank (c : Char) : Bool := Text.isWhite c || (0x1c ≤ c.toNat && c.toNat ≤ 0x1f)

/-- The codings that a header names, with commas between the names. -/
def ofHeader (header : String) : List Coding :=
  (header.toList.splitOnP (· == ',')).filterMap fun word =>
    ofWord? ((String.ofList (Text.trim isBlank word)).toLower)

/-- The bytes behind the codings of a header. The last one is taken off first. -/
def decodeAll (header : String) (bytes : List UInt8) : Except String (List UInt8) :=
  (ofHeader header).reverse.foldlM (fun bytes c => c.decode bytes) bytes

end Coding

end NodeKeeper
