/-
Ticks without wrapping. `Exact.tick` does what `Machine.tick` does, but gives nothing where a sum
or a difference of words or a step of the stack pointer would wrap. On reachable machines it always
gives what `Machine.tick` gives.
-/
import Chip8.Proofs.Machine.Invariant

namespace Chip8

namespace Exact

/-! ## Operations that refuse to wrap -/

def add (a b : UInt16) : Option UInt16 := if a.toNat + b.toNat < 65536 then some (a + b) else none

def sub (a b : UInt16) : Option UInt16 := if b.toNat ≤ a.toNat then some (a - b) else none

/-- A stack pointer one cell up. -/
def up (p : UInt8) : Option UInt8 := if p.toNat + 1 < 256 then some (p + 1) else none

/-- A stack pointer one cell down. -/
def down (p : UInt8) : Option UInt8 := if 1 ≤ p.toNat then some (p - 1) else none

/-! ## The tick over them -/

/-- Reads the bytes at the program counter and behind it. -/
def fetch (s : Machine) : Option (Machine × UInt16) := do
  let behind ← add s.pc 1
  let pc ← add s.pc 2
  return ({ s with pc }, bigEndian (s.memory.read s.pc.toNat) (s.memory.read behind.toNat))

def haltBack (s : Machine) (f : Fault) : Option Machine := do
  let pc ← sub s.pc 2
  return { s with pc, fault := f.code }

def skipIf (s : Machine) (c : Bool) : Option Machine :=
  if c then do
    let pc ← add s.pc 2
    return { s with pc }
  else return s

def ret (s : Machine) : Option Machine :=
  if s.stack.isEmpty then haltBack s .stackUnderflow
  else do
    let pointer ← down s.stack.pointer
    return { s with
      stack := ⟨s.stack.cells.setIfInBounds pointer.toNat 0, pointer⟩
      pc := s.stack.read pointer.toNat }

def call (s : Machine) (target : Fin 4096) : Option Machine :=
  if s.stack.isFull then haltBack s .stackOverflow
  else do
    let pointer ← up s.stack.pointer
    return { s with
      stack := ⟨s.stack.cells.setIfInBounds s.stack.pointer.toNat s.pc, pointer⟩
      pc := UInt16.ofNat target }

/-- An instruction that counts with the program counter only to halt the machine. -/
def other (s : Machine) (i : Instruction) : Option Machine :=
  if s.Overruns i then haltBack s .memoryBounds else some (s.execute i)

def execute (s : Machine) : Instruction → Option Machine
  | .ret => ret s
  | .call a => call s a
  | .skipEqualByte x k => skipIf s (s.register x == k)
  | .skipUnequalByte x k => skipIf s (s.register x != k)
  | .skipEqual x y => skipIf s (s.register x == s.register y)
  | .skipUnequal x y => skipIf s (s.register x != s.register y)
  | .skipDown x => skipIf s (s.keyDown x)
  | .skipUp x => skipIf s (!s.keyDown x)
  | .jumpOffset a => do
    let pc ← add (UInt16.ofNat a) (UInt16.ofNat (s.register 0).toNat)
    return { s with pc }
  -- the notice of an undefined word names the address before the program counter
  | .unknown _ => do
    let _ ← sub s.pc 2
    return s
  | i => other s i

def tick (s : Machine) (keys : Keypad) : Option Machine :=
  match s.next with
  | .word _ => do
    let (t, w) ← fetch (s.sample keys)
    let u ← execute t (.ofWord w.toNat)
    return u.countDownIfRunning
  | _ => return s.tick keys

/-! ## Agreement -/

section Agreement

variable {s : Machine}

theorem add_eq {a b : UInt16} (h : a.toNat + b.toNat < 65536) : add a b = some (a + b) := if_pos h

theorem sub_eq {a b : UInt16} (h : b.toNat ≤ a.toNat) : sub a b = some (a - b) := if_pos h

theorem fetch_eq (h : s.pc.toNat + 2 < 65536) : fetch s = some s.fetch := by
  have h1 : s.pc.toNat + (1 : UInt16).toNat < 65536 := Nat.lt_of_succ_lt h
  rw [fetch, add_eq h1, add_eq h]
  rfl

theorem haltBack_eq (h : 2 ≤ s.pc.toNat) (f : Fault) : haltBack s f = some (s.haltBack f) := by
  rw [haltBack, sub_eq (b := 2) h]
  rfl

theorem skipIf_eq (h : s.pc.toNat + 2 < 65536) (c : Bool) : skipIf s c = some (s.skipIf c) := by
  cases c with
  | true =>
    rw [skipIf, add_eq h]
    rfl
  | false => rfl

theorem ret_eq (h : 2 ≤ s.pc.toNat) : ret s = some s.ret := by
  unfold ret Machine.ret
  split
  · exact haltBack_eq h _
  · next he =>
    have hpos : 1 ≤ s.stack.pointer.toNat := CallStack.isEmpty_eq_false.1 (by simpa using he)
    rw [down, if_pos hpos]
    rfl

theorem call_eq (h : 2 ≤ s.pc.toNat) (target : Fin 4096) : call s target = some (s.call target) := by
  unfold call Machine.call
  split
  · exact haltBack_eq h _
  · next hf =>
    have hlt := CallStack.isFull_eq_false.1 (by simpa using hf)
    rw [up, if_pos (by omega)]
    rfl

theorem other_eq (h : 2 ≤ s.pc.toNat) (i : Instruction) : other s i = some (s.execute i) := by
  unfold other
  split
  · next ho => rw [haltBack_eq h, Machine.execute_of_obstacle (Machine.obstacle?_of_overruns ho)]
  · rfl

theorem execute_eq (h : s.Fetched) (i : Instruction) : execute s i = some (s.execute i) := by
  have hlt : s.pc.toNat + 2 < 65536 := by have := h.pc_le_size; omega
  cases i with
  | ret => exact ret_eq h.pc_ge
  | call a => exact call_eq h.pc_ge a
  | skipEqualByte | skipUnequalByte | skipEqual | skipUnequal | skipDown | skipUp =>
    exact skipIf_eq hlt _
  | jumpOffset a =>
    have := UInt8.toNat_lt (s.register 0)
    rw [execute, add_eq (by simp; omega), ← UInt16.ofNat_add]
    rfl
  | unknown w =>
    rw [execute, sub_eq (b := 2) h.pc_ge]
    rfl
  | _ => exact other_eq h.pc_ge _

theorem tick_eq (h : s.Sound) (keys : Keypad) : tick s keys = some (s.tick keys) := by
  cases hn : s.next with
  | word w =>
    obtain ⟨-, -, hm, hw⟩ := Machine.next_eq_word_iff.1 hn
    have hf : fetch (s.sample keys) = some ((s.sample keys).fetch.1, w) := by
      rw [← hw]
      exact fetch_eq (s := s.sample keys) (Nat.lt_of_le_of_lt hm (by decide))
    rw [Machine.tick_of_word keys hn, tick, hn]
    simp [hf, execute_eq (h.fetched keys hn)]
  | _ => rw [tick, hn]; rfl

end Agreement

end Exact

namespace Machine

/-- Every machine that programs and ticks make of a fresh one is sound, and no tick of it wraps. -/
theorem Reachable.sound_and_exact {s : Machine} (h : Reachable s) :
    Sound s ∧ ∀ keys, Exact.tick s keys = some (s.tick keys) :=
  ⟨h.sound, Exact.tick_eq h.sound⟩

/-- A program that calls itself until the stack is full. -/
theorem sound_and_exact_selfCall :
    let s := ((fresh (.ofSeed 0) true).loadOrKeep [0x22, 0x00]).run (List.replicate 17 Keypad.released)
    s.fault = 1 ∧ s.stack.pointer = 16 ∧ s.pc = 0x200 ∧
      Sound s ∧ ∀ keys, Exact.tick s keys = some (s.tick keys) := by
  intro s
  have h : Reachable s := .run (.load _ (.fresh _ _)) _
  have hs : s.fault = 1 ∧ s.stack.pointer = 16 ∧ s.pc = 0x200 := by decide +kernel
  obtain ⟨hf, hp, hpc⟩ := hs
  exact ⟨hf, hp, hpc, h.sound_and_exact⟩

end Machine

end Chip8
