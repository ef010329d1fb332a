/-
What a machine tells about itself: undefined words as it passes over them, the line that announces
the coming tick, and the cause of a halt.
-/
import Chip8.Disassembler
import Chip8.Machine.Tick

namespace Chip8

/-! ## Undefined words -/

/-- An undefined word and the address it was read from. -/
structure Notice where
  word : Int
  address : Int
  deriving DecidableEq

def Notice.message (n : Notice) : String :=
  "Unknown opcode 0x" ++ Hex.padded 4 n.word ++ " at 0x" ++ Hex.padded 3 n.address

/-- The notice given by executing an instruction, with the program counter past it. -/
def Machine.noticeOf? (s : Machine) : Instruction → Option Notice
  | .unknown w => some ⟨w, (s.pc - 2).toNat⟩
  | _ => none

/-- The notice given by the coming tick. -/
def Machine.notice? (s : Machine) : Option Notice :=
  s.nextWord?.bind fun w => s.fetch.1.noticeOf? (.ofWord w.toNat)

/-- The notices of ticks with the given samples. -/
def Machine.notices (s : Machine) : List Keypad → List Notice
  | [] => []
  | k :: ks => s.notice?.toList ++ (s.tick k).notices ks

/-! ## The coming tick -/

/-- A word at its address with its text. -/
def traceText (address word : Int) (text : String) : String :=
  "0x" ++ Hex.padded 3 address ++ "  " ++ Hex.padded 4 word ++ "  " ++ text

/-- The line that announces the coming tick. -/
def Machine.trace (s : Machine) : String :=
  if s.awaiting then
    "0x" ++ Hex.padded 3 s.pc.toNat ++ "  waiting for key -> V" ++ Hex.padded 1 s.keyRegister.toNat
  else traceText s.pc.toNat s.fetch.2.toNat (disassemble s.fetch.2.toNat)

/-! ## Halts -/

/-- The fault of a stored number. -/
def Fault.ofCode? (code : Int) : Option Fault :=
  if code = 1 then some .stackOverflow
  else if code = 2 then some .stackUnderflow
  else if code = 3 then some .memoryBounds
  else none

def Fault.description : Fault → String
  | .stackOverflow => "Stack overflow on CALL"
  | .stackUnderflow => "Stack underflow on RET"
  | .memoryBounds => "Memory access out of bounds"

/-- Why a machine stands still. -/
inductive Halt where
  /-- A fault of the instruction at `pc`. -/
  | fault (cause : Fault) (pc index : Int)
  /-- A number that stands for no fault. -/
  | undefined (code : Int)
  deriving DecidableEq

/-- The halt that a stored number, a program counter and an index stand for; none if the number is
zero. -/
def Halt.of? (code pc index : Int) : Option Halt :=
  if code = 0 then none
  else match Fault.ofCode? code with
    | some f => some (.fault f pc index)
    | none => some (.undefined code)

def Halt.message : Halt → String
  | .fault f pc index =>
    f.description ++ " at 0x" ++ Hex.padded 3 pc ++ " (I=0x" ++ Hex.padded 3 index ++ ")"
  | .undefined code => toString code

/-- Why the machine stands still, if it does. -/
def Machine.halt? (s : Machine) : Option Halt := Halt.of? s.fault.toNat s.pc.toNat s.index.toNat

end Chip8
