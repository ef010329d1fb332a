/-
Ticks. A tick takes one sample of the keypad, does what `Machine.next` says (nothing on a halted
machine, one more look for a key on a waiting one, else one instruction) and then counts both
timers down, unless the machine halted.
-/
import Chip8.Machine.Execute

namespace Chip8

/-- What the coming tick does. -/
inductive Next where
  /-- The machine has halted. -/
  | halted
  /-- `LD Vx, K` still waits for a key. -/
  | awaiting
  /-- The program counter leaves no room for a word in memory. -/
  | overrun
  /-- The word at the program counter is executed. -/
  | word (w : UInt16)
  deriving DecidableEq

namespace Machine

/-- The word at the program counter and the machine after reading it. -/
def fetch (s : Machine) : Machine × UInt16 := ({ s with pc := s.pc + 2 }, s.memory.word s.pc)

def next (s : Machine) : Next :=
  if s.fault ≠ 0 then .halted
  else if s.awaiting then .awaiting
  else if Memory.Fits s.pc.toNat 2 then .word s.fetch.2
  else .overrun

/-- The word that the coming tick executes, if it executes one. -/
def nextWord? (s : Machine) : Option UInt16 :=
  match s.next with
  | .word w => some w
  | _ => none

/-- Takes a sample of the keypad and clears what described the tick before. -/
def sample (s : Machine) (keys : Keypad) : Machine :=
  { s with keypad := keys, redraw := false, beeping := false }

/-- Ends the wait for a key if one is down. A register number past `VF` receives nothing. -/
def resume (s : Machine) : Machine :=
  match s.keypad.lowest? with
  | some k =>
    { s with
      registers := s.registers.setIfInBounds s.keyRegister.toNat (UInt8.ofNat k)
      awaiting := false }
  | none => s

/-- Counts both timers down to zero; the beep lasts while the sound timer was running. -/
def countDown (s : Machine) : Machine :=
  { s with
    delay := if 0 < s.delay then s.delay - 1 else s.delay
    sound := if 0 < s.sound then s.sound - 1 else s.sound
    beeping := decide (0 < s.sound) }

/-- The timers stand still on a halted machine. -/
def countDownIfRunning (s : Machine) : Machine := if s.fault = 0 then s.countDown else s

def tick (s : Machine) (keys : Keypad) : Machine :=
  match s.next with
  | .halted => s.sample keys
  | .awaiting => (s.sample keys).resume.countDownIfRunning
  | .overrun => (s.sample keys).halt .memoryBounds
  | .word w => ((s.sample keys).fetch.1.execute (.ofWord w.toNat)).countDownIfRunning

/-- Ticks with the given samples, one after the other. -/
def run (s : Machine) (samples : List Keypad) : Machine := samples.foldl tick s

end Machine

end Chip8
