/-
Random bytes from a counter-based generator. A key of two words enciphers a counter of two words
in twenty rounds of add, rotate and exclusive or (Threefry 2x32); splitting a key enciphers the
counters 0 and 1. The stream of bytes is a function of the seed alone.
-/
import Chip8.Word

namespace Chip8.Random

/-- A cipher key, which is also the generator's whole state. -/
structure Key where
  high : UInt32
  low : UInt32
  deriving DecidableEq

/-- Rotation to the left by fewer than 32 and more than 0 places. -/
def rotate (w : UInt32) (places : UInt32) : UInt32 := (w <<< places) ||| (w >>> (32 - places))

/-- One round: add, rotate, mix. -/
def round (x : UInt32 × UInt32) (places : UInt32) : UInt32 × UInt32 :=
  let sum := x.1 + x.2
  (sum, rotate x.2 places ^^^ sum)

namespace Key

/-- The key of a seed, taken modulo 2^32. -/
def ofSeed (seed : Int) : Key := ⟨0, UInt32.ofNat (seed % 4294967296).toNat⟩

/-- The key of a number given as a seed. -/
def ofNumber (seed : Int) : Except WordOverflow Key := (hostWord seed).map ofSeed

/-- The key schedule: the two words and their parity, repeated. -/
def schedule (k : Key) (i : Nat) : UInt32 :=
  match i % 3 with
  | 0 => k.high
  | 1 => k.low
  | _ => k.high ^^^ k.low ^^^ 0x1BD11BDA

/-- The rotations of the `i`-th group of four rounds. -/
def rotations (i : Nat) : List UInt32 :=
  if i % 2 = 0 then [13, 15, 26, 6] else [17, 29, 16, 24]

/-- Four rounds and the injection of the key words that follows them. -/
def group (k : Key) (x : UInt32 × UInt32) (i : Nat) : UInt32 × UInt32 :=
  let x := (rotations i).foldl round x
  (x.1 + k.schedule (i + 1), x.2 + k.schedule (i + 2) + UInt32.ofNat (i + 1))

/-- The counter `high`, `low` enciphered under the key. -/
def encipher (k : Key) (high low : UInt32) : UInt32 × UInt32 :=
  (List.range 5).foldl k.group (high + k.schedule 0, low + k.schedule 1)

def split (k : Key) : Key × Key :=
  let a := k.encipher 0 0
  let b := k.encipher 0 1
  (⟨a.1, a.2⟩, ⟨b.1, b.2⟩)

def next (k : Key) : Key := k.split.1

def byte (k : Key) : UInt8 :=
  let bits := k.split.2.split.2.encipher 0 0
  (bits.1 ^^^ bits.2).toUInt8

end Key

end Chip8.Random
