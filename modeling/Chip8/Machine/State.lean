/-
The state of a machine and the ways to make one: a fresh machine with the font in memory, and a
program copied to `0x200`.
-/
import Chip8.CallStack
import Chip8.Keypad
import Chip8.Memory
import Chip8.Random
import Chip8.Screen

namespace Chip8

/-- The sixteen byte registers `V0` to `VF`. -/
abbrev Registers := Vector UInt8 16

/-- The reasons for which a machine halts. -/
inductive Fault where
  | stackOverflow
  | stackUnderflow
  | memoryBounds
  deriving DecidableEq

/-- The number that the machine stores for a fault. -/
def Fault.code : Fault → UInt8
  | .stackOverflow => 1
  | .stackUnderflow => 2
  | .memoryBounds => 3

/-- A whole machine. `keypad`, `redraw` and `beeping` describe the last tick: the keys it saw,
whether it touched the screen and whether the sound timer was running. `fault` is zero while the
machine runs; `carryIndex` chooses whether `ADD I` reports leaving the address space in `VF`. -/
structure Machine where
  memory : Memory
  registers : Registers
  index : UInt16
  pc : UInt16
  stack : CallStack
  delay : UInt8
  sound : UInt8
  screen : Screen
  keypad : Keypad
  random : Random.Key
  redraw : Bool
  beeping : Bool
  awaiting : Bool
  keyRegister : UInt8
  fault : UInt8
  carryIndex : Bool

namespace Machine

/-- The index of the register that receives flags. -/
def flagRegister : Fin 16 := 15

/-- A machine before its first tick. -/
def fresh (key : Random.Key) (carryIndex : Bool) : Machine where
  memory := Memory.fresh
  registers := Vector.replicate 16 0
  index := 0
  pc := 0x200
  stack := CallStack.empty
  delay := 0
  sound := 0
  screen := Screen.blank
  keypad := Keypad.released
  random := key
  redraw := false
  beeping := false
  awaiting := false
  keyRegister := 0
  fault := 0
  carryIndex := carryIndex

/-- Copies a program to `0x200`; bytes after it keep their content. -/
def withProgram (s : Machine) (program : List UInt8) : Machine :=
  { s with memory := s.memory.store programStart program }

def halt (s : Machine) (f : Fault) : Machine := { s with fault := f.code }

/-- Halts on the instruction just fetched: the program counter goes back to it. -/
def haltBack (s : Machine) (f : Fault) : Machine := { s with pc := s.pc - 2, fault := f.code }

def register (s : Machine) (x : Fin 16) : UInt8 := s.registers.get x

def setRegister (s : Machine) (x : Fin 16) (v : UInt8) : Machine :=
  { s with registers := s.registers.set x v }

/-- Passes over the next instruction if the condition holds. -/
def skipIf (s : Machine) (c : Bool) : Machine := if c then { s with pc := s.pc + 2 } else s

end Machine

end Chip8
