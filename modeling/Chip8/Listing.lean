/-
The listing of a program: its bytes taken as words, high byte first, each with its address and its
text. A last single byte counts as the high byte of a word whose low byte is zero.
-/
import Chip8.Disassembler
import Chip8.Word

namespace Chip8.Listing

structure Line where
  address : Int
  word : UInt16
  text : String
  deriving DecidableEq

/-- The line of a word at an address. -/
def line (address : Int) (w : UInt16) : Line := ⟨address, w, disassemble w.toNat⟩

/-- The lines of a program whose first byte stands at `start`. -/
def ofBytes (start : Int) : List UInt8 → List Line
  | [] => []
  | [high] => [line start (bigEndian high 0)]
  | high :: low :: rest => line start (bigEndian high low) :: ofBytes (start + 2) rest

end Chip8.Listing
