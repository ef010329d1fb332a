/-
The text of instruction words. A word is asked for its first digit, one value after the other, and in
families with words that are no instruction for its last digit or last byte too. A word that is left
over is shown as data, `DW 0xNNNN`.
-/
import Chip8.Instruction
import Chip8.Text.Hex

namespace Chip8

namespace Mnemonic

/-- A register operand, `V0` to `VF`. -/
def register (x : Fin 16) : String := "V" ++ Hex.padded 1 x.val

def byte (k : UInt8) : String := "0x" ++ Hex.padded 2 k.toNat

def address (a : Fin 4096) : String := "0x" ++ Hex.padded 3 a.val

/-- The operations of two registers by the last digit. -/
def aluNames : List (Nat × String) :=
  [(0x0, "LD"), (0x1, "OR"), (0x2, "AND"), (0x3, "XOR"), (0x4, "ADD"), (0x5, "SUB"), (0x7, "SUBN")]

/-- The texts of family `FXKK` by the last byte: what stands before and behind the register. -/
def miscFormats : List (UInt8 × String × String) :=
  [(0x07, "LD ", ", DT"), (0x0A, "LD ", ", K"), (0x15, "LD DT, ", ""), (0x18, "LD ST, ", ""),
    (0x1E, "ADD I, ", ""), (0x29, "LD F, ", ""), (0x33, "LD B, ", ""), (0x55, "LD [I], ", ""),
    (0x65, "LD ", ", [I]")]

/-- The text of a word by its fields. A word that no test returns for is shown as data. -/
def ofFields (f : Fields) : String := Id.run do
  if f.opcode.val = 0x0 then
    if f.raw = 0x00E0 then return "CLS"
    if f.raw = 0x00EE then return "RET"
  if f.opcode.val = 0x1 then return "JP " ++ address f.nnn
  if f.opcode.val = 0x2 then return "CALL " ++ address f.nnn
  if f.opcode.val = 0x3 then return "SE " ++ register f.x ++ ", " ++ byte f.kk
  if f.opcode.val = 0x4 then return "SNE " ++ register f.x ++ ", " ++ byte f.kk
  if f.opcode.val = 0x5 then return "SE " ++ register f.x ++ ", " ++ register f.y
  if f.opcode.val = 0x6 then return "LD " ++ register f.x ++ ", " ++ byte f.kk
  if f.opcode.val = 0x7 then return "ADD " ++ register f.x ++ ", " ++ byte f.kk
  if f.opcode.val = 0x8 then
    if let some name := aluNames.lookup f.n.val then
      return name ++ " " ++ register f.x ++ ", " ++ register f.y
    if f.n.val = 0x6 then return "SHR " ++ register f.x
    if f.n.val = 0xE then return "SHL " ++ register f.x
  if f.opcode.val = 0x9 then return "SNE " ++ register f.x ++ ", " ++ register f.y
  if f.opcode.val = 0xA then return "LD I, " ++ address f.nnn
  if f.opcode.val = 0xB then return "JP V0, " ++ address f.nnn
  if f.opcode.val = 0xC then return "RND " ++ register f.x ++ ", " ++ byte f.kk
  if f.opcode.val = 0xD then
    return "DRW " ++ register f.x ++ ", " ++ register f.y ++ ", " ++ toString f.n.val
  if f.opcode.val = 0xE then
    if f.kk = 0x9E then return "SKP " ++ register f.x
    if f.kk = 0xA1 then return "SKNP " ++ register f.x
  if f.opcode.val = 0xF then
    if let some (before, behind) := miscFormats.lookup f.kk then
      return before ++ register f.x ++ behind
  return "DW 0x" ++ Hex.padded 4 f.raw

end Mnemonic

/-- The text of the low sixteen bits of a word. -/
def disassemble (word : Int) : String := Mnemonic.ofFields (Fields.ofWord (word % 65536))

end Chip8
