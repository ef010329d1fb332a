/-
What one instruction does to a machine whose program counter already points past it. An undefined
word does nothing here; `Notice` says how it is reported.
-/
import Chip8.Instruction
import Chip8.Machine.State

namespace Chip8

/-! ## Arithmetic -/

/-- The result of a two-register operation and the flag, for those that have one. A difference has
flag 1 if it is positive. -/
def Alu.eval : Alu → UInt8 → UInt8 → UInt8 × Option Bool
  | .copy, _, b => (b, none)
  | .or, a, b => (a ||| b, none)
  | .and, a, b => (a &&& b, none)
  | .xor, a, b => (a ^^^ b, none)
  | .add, a, b => (a + b, some (decide (255 < a.toNat + b.toNat)))
  | .sub, a, b => (a - b, some (decide (b < a)))
  | .subFrom, a, b => (b - a, some (decide (a < b)))

/-- A flag as the byte in `VF`. -/
def flagByte (b : Bool) : UInt8 := if b then 1 else 0

/-- The three decimal digits of a byte. -/
def decimalDigits (v : UInt8) : List UInt8 := [v / 100, v / 10 % 10, v % 10]

namespace Machine

/-- Writes a result and after it the flag, so that the flag stays when both go to `VF`. -/
def setResult (s : Machine) (x : Fin 16) (r : UInt8 × Option Bool) : Machine :=
  match r.2 with
  | none => s.setRegister x r.1
  | some f => (s.setRegister x r.1).setRegister flagRegister (flagByte f)

/-! ## Instructions that can halt the machine -/

/-- `RET`: continues at the last return address. -/
def ret (s : Machine) : Machine :=
  if s.stack.isEmpty then s.haltBack .stackUnderflow
  else { s with stack := s.stack.pop.1, pc := s.stack.pop.2 }

/-- `CALL`: keeps the address after the call. -/
def call (s : Machine) (target : Fin 4096) : Machine :=
  if s.stack.isFull then s.haltBack .stackOverflow
  else { s with stack := s.stack.push s.pc, pc := UInt16.ofNat target }

/-- `DRW`: flips the pixels under the sprite at `I`; the flag says whether one of them was lit. -/
def draw (s : Machine) (x y height : Fin 16) : Machine :=
  if height = 0 ∨ Memory.Fits s.index.toNat height then
    let sprite := s.memory.slice s.index.toNat height
    let mask := Screen.place sprite (s.register x).toNat (s.register y).toNat
    { s.setRegister flagRegister (flagByte (s.screen.collides mask)) with
      screen := s.screen.flip mask
      redraw := true }
  else s.haltBack .memoryBounds

/-- `LD B`: stores the decimal digits of a register. -/
def storeDigits (s : Machine) (x : Fin 16) : Machine :=
  if Memory.Fits s.index.toNat 3 then
    { s with memory := s.memory.store s.index.toNat (decimalDigits (s.register x)) }
  else s.haltBack .memoryBounds

/-- `LD [I]`: stores the registers up to `x`. -/
def storeRegisters (s : Machine) (x : Fin 16) : Machine :=
  if Memory.Fits s.index.toNat (x + 1) then
    { s with memory := s.memory.store s.index.toNat (s.registers.toList.take (x + 1)) }
  else s.haltBack .memoryBounds

/-- `LD Vx, [I]`: loads the registers up to `x`. -/
def loadRegisters (s : Machine) (x : Fin 16) : Machine :=
  if Memory.Fits s.index.toNat (x + 1) then
    { s with registers := Vector.ofFn fun r : Fin 16 =>
        if r ≤ x then s.memory.read (s.index.toNat + r) else s.register r }
  else s.haltBack .memoryBounds

/-! ## The index register and the keypad -/

/-- `ADD I`: the sum stays at `0xFFFF` instead of wrapping. With `carryIndex`, `VF` says whether it
is past the address space. -/
def addIndex (s : Machine) (x : Fin 16) : Machine :=
  let sum := min (s.index.toNat + (s.register x).toNat) 0xFFFF
  let moved := { s with index := UInt16.ofNat sum }
  if s.carryIndex then moved.setRegister flagRegister (flagByte (decide (0xFFF < sum))) else moved

/-- `LD Vx, K`: takes the lowest key that is down, or waits for one. -/
def waitKey (s : Machine) (x : Fin 16) : Machine :=
  match s.keypad.lowest? with
  | some k => s.setRegister x (UInt8.ofNat k)
  | none => { s with awaiting := true, keyRegister := UInt8.ofNat x }

/-- The key that a register names is down; its high digit is ignored. -/
def keyDown (s : Machine) (x : Fin 16) : Bool := s.keypad.isDown (Fin.ofNat 16 (s.register x).toNat)

/-! ## All instructions -/

def execute (s : Machine) : Instruction → Machine
  | .clear => { s with screen := Screen.blank, redraw := true }
  | .ret => s.ret
  | .jump a => { s with pc := UInt16.ofNat a }
  | .call a => s.call a
  | .skipEqualByte x k => s.skipIf (s.register x == k)
  | .skipUnequalByte x k => s.skipIf (s.register x != k)
  | .skipEqual x y => s.skipIf (s.register x == s.register y)
  | .setByte x k => s.setRegister x k
  | .addByte x k => s.setRegister x (s.register x + k)
  | .alu op x y => s.setResult x (op.eval (s.register x) (s.register y))
  | .shiftRight x => s.setResult x (s.register x >>> 1, some ((s.register x).toNat.testBit 0))
  | .shiftLeft x => s.setResult x (s.register x <<< 1, some ((s.register x).toNat.testBit 7))
  | .skipUnequal x y => s.skipIf (s.register x != s.register y)
  | .setIndex a => { s with index := UInt16.ofNat a }
  | .jumpOffset a => { s with pc := UInt16.ofNat (a + (s.register 0).toNat) }
  | .random x mask =>
    { s.setRegister x (s.random.byte &&& mask) with random := s.random.next }
  | .draw x y height => s.draw x y height
  | .skipDown x => s.skipIf (s.keyDown x)
  | .skipUp x => s.skipIf (!s.keyDown x)
  | .getDelay x => s.setRegister x s.delay
  | .waitKey x => s.waitKey x
  | .setDelay x => { s with delay := s.register x }
  | .setSound x => { s with sound := s.register x }
  | .addIndex x => s.addIndex x
  | .glyph x => { s with index := UInt16.ofNat ((s.register x).toNat * glyphSize) }
  | .storeDigits x => s.storeDigits x
  | .storeRegisters x => s.storeRegisters x
  | .loadRegisters x => s.loadRegisters x
  | .unknown _ => s

end Machine

end Chip8
