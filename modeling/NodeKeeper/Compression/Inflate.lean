import NodeKeeper.Compression.Huffman

/-!
# Compressed blocks

A compressed stream is a row of blocks. A block is stored as it is, or is a row of symbols: a byte
each, the end of the block, or the length of a passage that is repeated, with a distance that says
how far back it stands. The codes of the symbols are fixed, or stand at the start of the block.

## Main definitions

* `Inflate.blocks` — the blocks of a stream.
* `Inflate.raw`, `Inflate.zlib` — the bytes of a stream without and with a frame around it.

## Implementation notes

A stream that ends too early is no damage: what could be read of it counts. Every symbol takes a bit
and every block three, so the number of bits bounds the loops.
-/

namespace NodeKeeper.Compression.Inflate

/-! ## Symbols -/

/-- The least length, and the number of further bits, of a length symbol. -/
def lengthTable : List (Nat × Nat) := [
    (3, 0), (4, 0), (5, 0), (6, 0), (7, 0), (8, 0), (9, 0), (10, 0), (11, 1), (13, 1), (15, 1),
    (17, 1), (19, 2), (23, 2), (27, 2), (31, 2), (35, 3), (43, 3), (51, 3), (59, 3), (67, 4),
    (83, 4), (99, 4), (115, 4), (131, 5), (163, 5), (195, 5), (227, 5), (258, 0)]

/-- The least distance, and the number of further bits, of a distance symbol. -/
def distanceTable : List (Nat × Nat) := [
    (1, 0), (2, 0), (3, 0), (4, 0), (5, 1), (7, 1), (9, 2), (13, 2), (17, 3), (25, 3), (33, 4),
    (49, 4), (65, 5), (97, 5), (129, 6), (193, 6), (257, 7), (385, 7), (513, 8), (769, 8),
    (1025, 9), (1537, 9), (2049, 10), (3073, 10), (4097, 11), (6145, 11), (8193, 12), (12289, 12),
    (16385, 13), (24577, 13)]

/-- A number of a table, its further bits being read. -/
def entry (table : List (Nat × Nat)) (i : Nat) (complaint : String) : Decoder Nat :=
  match table[i]? with
  | some (least, further) => do return least + (← take further)
  | none => damaged complaint

/-- Repeats bytes from a distance back, which may be among those just repeated. -/
def repeatBytes (distance : Nat) : Nat → Decoder Unit
  | 0 => return
  | count + 1 => do
    let output := (← get).output
    write (output.getD (output.size - distance) 0)
    repeatBytes distance count

/-- The passage that a length symbol begins. -/
def passage (distances : Code) (lengthSymbol : Nat) : Decoder Unit := do
  let length ← entry lengthTable lengthSymbol "invalid literal/length code"
  let symbol ← distances.symbol
  let distance ← entry distanceTable (symbol.getD distanceTable.length) "invalid distance code"
  if (← get).output.size < distance then damaged "invalid distance too far back"
  repeatBytes distance length

/-- The symbols of a block up to its end, at most so many. -/
def symbols (literals distances : Code) : Nat → Decoder Unit
  | 0 => throw .dry
  | more + 1 => do
    match ← literals.symbol with
    | none => damaged "invalid literal/length code"
    | some symbol =>
      if symbol < 256 then
        write symbol.toUInt8
        symbols literals distances more
      else if symbol = 256 then return
      else
        passage distances (symbol - 257)
        symbols literals distances more

/-! ## Codes -/

/-- The fixed code of bytes and lengths. -/
def fixedLiterals : Code :=
  Code.ofLengths (List.replicate 144 8 ++ List.replicate 112 9 ++ List.replicate 24 7 ++
    List.replicate 8 8)

/-- The fixed code of distances. -/
def fixedDistances : Code := Code.ofLengths (List.replicate 32 5)

/-- The symbols of the code of lengths, in the order in which the lengths of their words come. -/
def lengthOrder : List Nat := [16, 17, 18, 0, 8, 7, 9, 6, 10, 5, 11, 4, 12, 3, 13, 2, 14, 1, 15]

/-- The lengths of the words for the lengths of words, so many of them. -/
def metaLengths (count : Nat) : Decoder (List Nat) := do
  let lengths ← (List.range count).mapM fun _ => take 3
  let placed := lengthOrder.zip lengths
  return (List.range lengthOrder.length).map fun symbol => (placed.lookup symbol).getD 0

/-- How often a length is repeated, and which: the last one of those so far, or none. -/
def repetition (seen : List Nat) (symbol : Nat) : Decoder (Nat × Nat) := do
  if symbol = 16 then
    let count := 3 + (← take 2)
    match seen.getLast? with
    | some length => return (count, length)
    | none => damaged "invalid bit length repeat"
  else if symbol = 17 then return (3 + (← take 3), 0)
  else return (11 + (← take 7), 0)

/-- The lengths of the words of all symbols, `total` in number, in at most so many steps. -/
def wordLengths (code : Code) (total : Nat) : Nat → List Nat → Decoder (List Nat)
  | 0, seen => return seen
  | more + 1, seen => do
    if total ≤ seen.length then return seen
    else
      let symbol := (← code.symbol).getD 0
      if symbol < 16 then wordLengths code total more (seen ++ [symbol])
      else
        let (count, length) ← repetition seen symbol
        if total < seen.length + count then damaged "invalid bit length repeat"
        else wordLengths code total more (seen ++ List.replicate count length)

/-- The code of given lengths. It has to be complete, unless it has no more than one word, and that
of length one. -/
def checked (lengths : List Nat) (complaint : String) : Decoder Code :=
  let code := Code.ofLengths lengths
  if code.isEmpty || code.isComplete || (!code.isOverfull && code.levels.length = 1) then
    return code
  else damaged complaint

/-- The code of the lengths of words. It has to be complete, or empty. -/
def metaCode (count : Nat) : Decoder Code := do
  let code := Code.ofLengths (← metaLengths count)
  if code.isEmpty || code.isComplete then return code else damaged "invalid code lengths set"

/-- The codes at the start of a block. -/
def codes : Decoder (Code × Code) := do
  let head ← take 14
  let literalCount := head % 32 + 257
  let distanceCount := head / 32 % 32 + 1
  if 286 < literalCount || 30 < distanceCount then
    damaged "too many length or distance symbols"
  let total := literalCount + distanceCount
  let lengths ← wordLengths (← metaCode (head / 1024 + 4)) total total []
  let literals := lengths.take literalCount
  if literals.getD 256 0 = 0 then damaged "invalid code -- missing end-of-block"
  return (← checked literals "invalid literal/lengths set",
    ← checked (lengths.drop literalCount) "invalid distances set")

/-! ## Blocks -/

/-- Passes over the bits up to the next byte. -/
def align : Decoder Unit := modify fun s => { s with bits := s.bits.drop (s.bits.length % 8) }

/-- So many bytes as they are. -/
def plainBytes : Nat → Decoder Unit
  | 0 => return
  | more + 1 => do
    write (← take 8).toUInt8
    plainBytes more

/-- A block that is stored as it is. -/
def stored : Decoder Unit := do
  align
  let head ← take 32
  if head % 65536 + head / 65536 ≠ 65535 then damaged "invalid stored block lengths"
  plainBytes (head % 65536)

/-- A block of one of the sorts. -/
def block (sort limit : Nat) : Decoder Unit := do
  match sort with
  | 0 => stored
  | 1 => symbols fixedLiterals fixedDistances limit
  | 2 =>
    let (literals, distances) ← codes
    symbols literals distances limit
  | _ => damaged "invalid block type"

/-- The blocks of a stream, at most so many. -/
def blocks : Nat → Decoder Unit
  | 0 => throw .dry
  | more + 1 => do
    let isLast ← take 1
    let sort ← take 2
    block sort (← get).bits.length.succ
    if isLast = 0 then blocks more

/-! ## Frames -/

/-- The check sum of bytes. -/
def checkSum (bytes : Array UInt8) : Nat :=
  let (a, b) := bytes.foldl (fun (a, b) byte =>
    let a := (a + byte.toNat) % 65521
    (a, (b + a) % 65521)) (1, 0)
  b * 65536 + a

/-- Four bytes as a number, the greatest first. -/
def bigEndian : Decoder Nat := do
  return (((← take 8) * 256 + (← take 8)) * 256 + (← take 8)) * 256 + (← take 8)

/-- A frame around the blocks: two bytes in front, and the check sum behind. -/
def frame (limit : Nat) : Decoder Unit := do
  let head ← take 16
  let (method, flags) := (head % 256, head / 256)
  if (method * 256 + flags) % 31 ≠ 0 then damaged "incorrect header check"
  if method % 16 ≠ 8 then damaged "unknown compression method"
  if 7 < method / 16 then damaged "invalid window size"
  if flags.testBit 5 then
    let _ ← take 32
    damaged "a dictionary is needed"
  blocks limit
  align
  if (← bigEndian) ≠ checkSum (← get).output then damaged "incorrect data check"

/-- The bytes that a decoder writes. -/
def run (decoder : Nat → Decoder Unit) (bytes : List UInt8) : Except String (List UInt8) :=
  let bits := bitsOf bytes
  match (decoder bits.length.succ).run { bits } with
  | (.error (.damaged reason), _) => .error reason
  | (_, s) => .ok s.output.toList

/-- The bytes of a stream without a frame. -/
def raw : List UInt8 → Except String (List UInt8) := run blocks

/-- The bytes of a stream with a frame. -/
def zlib : List UInt8 → Except String (List UInt8) := run frame

end NodeKeeper.Compression.Inflate
