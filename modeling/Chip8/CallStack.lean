/-
Return addresses: sixteen cells and the index of the next free one. The pointer is a byte, so it
wraps, and a pointer past the cells is possible in principle: a write there is dropped and a read
there answers with the last cell. `CALL` and `RET` look at `isFull` and `isEmpty` first.
-/
namespace Chip8

/-- Sixteen cells, filled from 0 up to the pointer. -/
structure CallStack where
  cells : Vector UInt16 16
  pointer : UInt8
  deriving DecidableEq

namespace CallStack

/-- No address, all cells zero. -/
def empty : CallStack := ⟨Vector.replicate 16 0, 0⟩

def isFull (s : CallStack) : Bool := 16 ≤ s.pointer

/-- No address to return to. -/
def isEmpty (s : CallStack) : Bool := s.pointer = 0

/-- The cell at an index; past the end the last cell answers. -/
def read (s : CallStack) (i : Nat) : UInt16 :=
  if h : i < 16 then s.cells[i] else s.cells[15]

/-- Puts an address into the next free cell. -/
def push (s : CallStack) (a : UInt16) : CallStack :=
  ⟨s.cells.setIfInBounds s.pointer.toNat a, s.pointer + 1⟩

/-- Takes the last address and zeroes its cell. -/
def pop (s : CallStack) : CallStack × UInt16 :=
  let i := (s.pointer - 1).toNat
  (⟨s.cells.setIfInBounds i 0, s.pointer - 1⟩, s.read i)

end CallStack

end Chip8
