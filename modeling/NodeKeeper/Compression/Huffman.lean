/-!
# Prefix codes

Symbols are written as words of bits, no word being the beginning of another one. The lengths of
the words determine the code: of two words the shorter is the smaller one, and of two words of one
length that of the smaller symbol.

## Main definitions

* `Stream`, `Decoder` — the bits that are left and the bytes that were written, and what changes
  them.
* `Code` — a prefix code, and `Code.ofLengths` — the code of given lengths.
* `Code.isComplete`, `Code.isOverfull` — whether the words leave bits without a meaning, or use
  some twice.
* `Code.symbol` — reading a symbol.
-/

namespace NodeKeeper.Compression

/-- The bits that are left, the first in front, and the bytes that were written. -/
structure Stream where
  bits : List Bool
  output : Array UInt8 := #[]

/-- Why decoding stops. -/
inductive Halt where
  /-- There are no bits left. -/
  | dry
  | damaged (reason : String)
deriving DecidableEq, Repr

/-- Reads bits and writes bytes. What was written before it stopped stays written. -/
abbrev Decoder (α : Type) := ExceptT Halt (StateM Stream) α

/-- The bits of bytes, of each byte the least bit first. -/
def bitsOf (bytes : List UInt8) : List Bool :=
  bytes.flatMap fun b => (List.range 8).map fun i => b.toNat.testBit i

/-- The number of some bits, the least bit first. -/
def numberOf (bits : List Bool) : Nat := bits.foldr (fun b n => 2 * n + b.toNat) 0

/-- Stops because of damage. -/
def damaged {α : Type} (reason : String) : Decoder α := throw (.damaged reason)

/-- The number of the next bits, the least bit first. -/
def take (count : Nat) : Decoder Nat := do
  let s ← get
  let taken := s.bits.take count
  if taken.length < count then throw .dry
  set { s with bits := s.bits.drop count }
  return numberOf taken

/-- Writes a byte. -/
def write (b : UInt8) : Decoder Unit := modify fun s => { s with output := s.output.push b }

/-- A prefix code: for each length from one on, the symbols with words of that length. -/
structure Code where
  levels : List (List Nat)
deriving Repr

namespace Code

/-- The greatest length of a word. -/
def maxLength : Nat := 15

/-- The code in which every symbol has a word of the length that stands at its place; a symbol of
length zero has none. -/
def ofLengths (lengths : List Nat) : Code :=
  let longest := lengths.foldl max 0
  ⟨(List.range longest).map fun n =>
    (lengths.zipIdx.filter fun p => p.1 = n + 1).map Prod.snd⟩

/-- How many words of the greatest length are left for further symbols; negative if there are too
many words of some length. -/
def slack (c : Code) : Int :=
  go 1 c.levels
where
  /-- `free` words of the length so far are left. -/
  go (free : Int) : List (List Nat) → Int
    | [] => free
    | level :: rest =>
      let left := 2 * free - level.length
      if left < 0 then left else go left rest

/-- Some bits would begin two words. -/
def isOverfull (c : Code) : Bool := c.slack < 0

/-- All bits begin with a word. -/
def isComplete (c : Code) : Bool := c.slack = 0

/-- No symbol has a word. -/
def isEmpty (c : Code) : Bool := c.levels.isEmpty

/-- Reads a symbol; the bits may have no meaning. One bit is read even if there is no word at
all. -/
def symbol (c : Code) : Decoder (Option Nat) :=
  go 0 (if c.isEmpty then [[]] else c.levels)
where
  /-- Of the words of the length so far, the bits read are number `n` behind the shorter ones. -/
  go (n : Nat) : List (List Nat) → Decoder (Option Nat)
    | [] => return none
    | level :: rest => do
      let place := 2 * n + (← take 1)
      match level[place]? with
      | some symbol => return some symbol
      | none => go (place - level.length) rest

end Code

end NodeKeeper.Compression
