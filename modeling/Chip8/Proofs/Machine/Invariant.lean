/-
The invariant of every machine that programs and ticks make of a fresh one: pixels are 0 or 1, the
stack is well-formed and holds addresses behind a word of memory, the program counter is not far
behind the end of memory, numbers of registers and of faults are what they stand for, and a halted
machine neither waits nor asks for anything.

The bound of the program counter rests on that of the stacked addresses, which `RET` jumps to, and
the other way round, since `CALL` stacks the program counter; so both are kept together.
-/
import Chip8.Machine.Program
import Chip8.Proofs.CallStack
import Chip8.Proofs.Machine.Effect
import Chip8.Proofs.Screen
import Chip8.Proofs.Word

namespace Chip8

theorem Fault.code_le (f : Fault) : f.code.toNat ≤ 3 := by
  cases f <;> decide

namespace Machine

/-! ## Reachable machines -/

/-- Loads a program; one that does not fit leaves the machine as it is. -/
def loadOrKeep (s : Machine) (program : List UInt8) : Machine :=
  match s.load program with
  | .ok t => t
  | .error _ => s

/-- The machines that programs and ticks, in any order, make of a fresh one. -/
inductive Reachable : Machine → Prop where
  | fresh (key : Random.Key) (carryIndex : Bool) : Reachable (fresh key carryIndex)
  | load {s : Machine} (program : List UInt8) : Reachable s → Reachable (s.loadOrKeep program)
  | tick {s : Machine} (keys : Keypad) : Reachable s → Reachable (s.tick keys)

theorem Reachable.run {s : Machine} (h : Reachable s) (samples : List Keypad) :
    Reachable (s.run samples) := by
  induction samples generalizing s with
  | nil => exact h
  | cons k ks ih => exact ih (h.tick k)

theorem loadOrKeep_eq (s : Machine) (program : List UInt8) :
    s.loadOrKeep program = if programCapacity < program.length then s else s.withProgram program := by
  unfold loadOrKeep load
  by_cases h : programCapacity < program.length <;> simp [h]

/-! ## The invariant -/

/-- What holds of every reachable machine. -/
structure Sound (s : Machine) : Prop where
  screen : s.screen.Binary
  stack : s.stack.WF
  returns : ∀ a ∈ s.stack.toList, 2 ≤ a.toNat ∧ a.toNat ≤ 0x1000
  pc_le : s.pc.toNat ≤ 0x10FE
  keyRegister_le : s.keyRegister.toNat ≤ 15
  fault_le : s.fault.toNat ≤ 3
  quiet : s.fault ≠ 0 → s.awaiting = false ∧ s.redraw = false ∧ s.beeping = false

/-- A sound machine that runs and has just read a word: the program counter is behind it. -/
structure Fetched (s : Machine) : Prop extends Sound s where
  pc_ge : 2 ≤ s.pc.toNat
  pc_le_size : s.pc.toNat ≤ 0x1000
  running : s.fault = 0
  idle : s.awaiting = false ∧ s.redraw = false ∧ s.beeping = false

theorem fresh_sound (key : Random.Key) (carryIndex : Bool) : (fresh key carryIndex).Sound where
  screen := Screen.blank_binary
  stack := CallStack.empty_wf
  returns a ha := by simp [fresh, CallStack.toList_empty] at ha
  pc_le := by simp [fresh]
  keyRegister_le := by simp [fresh]
  fault_le := by simp [fresh]
  quiet _ := ⟨rfl, rfl, rfl⟩

section Steps

variable {s t : Machine} {i : Instruction}

theorem Sound.loadOrKeep (h : Sound s) (program : List UInt8) : Sound (s.loadOrKeep program) := by
  rw [loadOrKeep_eq]
  split
  · exact h
  · exact { h with }

theorem Sound.sample (h : Sound s) (keys : Keypad) : Sound (s.sample keys) :=
  { h with quiet := fun hf => ⟨(h.quiet hf).1, rfl, rfl⟩ }

theorem Sound.halt (h : Sound s) (f : Fault)
    (hi : s.awaiting = false ∧ s.redraw = false ∧ s.beeping = false) : Sound (s.halt f) :=
  { h with fault_le := Fault.code_le f, quiet := fun _ => hi }

theorem Sound.resume (h : Sound s) : Sound s.resume := by
  unfold Machine.resume
  split
  · exact { h with quiet := fun hf => ⟨rfl, (h.quiet hf).2⟩ }
  · exact h

theorem Sound.countDownIfRunning (h : Sound s) : Sound s.countDownIfRunning := by
  unfold Machine.countDownIfRunning
  split
  · next hf => exact { h with quiet := fun hne => absurd hf hne }
  · exact h

theorem Sound.fetched (h : Sound s) (keys : Keypad) {w : UInt16} (hn : s.next = .word w) :
    Fetched (s.sample keys).fetch.1 := by
  obtain ⟨hf, ha, hm, -⟩ := next_eq_word_iff.1 hn
  have hpc : (s.sample keys).fetch.1.pc.toNat = s.pc.toNat + 2 := toNat_add_two (a := s.pc) (by omega)
  exact {
    h.sample keys with
    pc_le := by omega
    pc_ge := by omega
    pc_le_size := by omega
    running := hf
    idle := ⟨ha, rfl, rfl⟩ }

/-- Whatever an instruction does keeps the machine sound. -/
theorem Fetched.effect (h : Fetched s) (e : Effect s i t) : Sound t := by
  have hge := h.pc_ge
  have hle := h.pc_le_size
  cases e with
  | stopped _ =>
    refine { h.toSound with pc_le := ?_, fault_le := Fault.code_le _, quiet := fun _ => h.idle }
    rw [haltBack, toNat_sub_two hge]
    omega
  | idle => exact h.toSound
  | skip =>
    refine { h.toSound with pc_le := ?_ }
    rw [toNat_add_two (by omega)]
    omega
  | jump a ha =>
    refine { h.toSound with pc_le := ?_ }
    rw [UInt16.toNat_ofNat']
    omega
  | @call a hf =>
    refine { h.toSound with stack := CallStack.push_wf h.stack hf _, returns := ?_, pc_le := ?_ }
    · intro b hb
      rw [CallStack.toList_push hf, List.mem_append, List.mem_singleton] at hb
      -- the new address is the program counter, which stands behind the word just read
      rcases hb with hb | rfl
      · exact h.returns b hb
      · exact ⟨hge, hle⟩
    · rw [UInt16.toNat_ofNat']
      omega
  | ret he =>
    -- the popped address lay on the stack, so it is low enough for a program counter
    have hmem : ∀ b, b ∈ s.stack.pop.1.toList ∨ b = s.stack.pop.2 → b ∈ s.stack.toList := by
      intro b hb
      rw [← CallStack.toList_pop h.stack he]
      simpa using hb
    refine { h.toSound with stack := CallStack.pop_wf h.stack he, returns := ?_, pc_le := ?_ }
    · exact fun b hb => h.returns b (hmem b (.inl hb))
    · have := (h.returns _ (hmem _ (.inr rfl))).2
      simp only
      omega
  | registers | index | random | delay | sound | memory => exact { h.toSound with }
  | clear =>
    exact { h.toSound with screen := Screen.blank_binary, quiet := fun hf => absurd h.running hf }
  | draw sprite left top =>
    exact { h.toSound with
      screen := Screen.flip_binary h.screen (Screen.place_binary _ _ _)
      quiet := fun hf => absurd h.running hf }
  | @wait x =>
    refine { h.toSound with keyRegister_le := ?_, quiet := fun hf => absurd h.running hf }
    rw [UInt8.toNat_ofNat']
    omega

theorem Sound.tick (h : Sound s) (keys : Keypad) : Sound (s.tick keys) := by
  cases hn : s.next with
  | halted =>
    rw [tick_of_halted keys hn]
    exact h.sample keys
  | awaiting =>
    rw [tick_of_awaiting keys hn]
    exact (h.sample keys).resume.countDownIfRunning
  | overrun =>
    rw [tick_of_overrun keys hn]
    exact (h.sample keys).halt _ ⟨(next_eq_overrun_iff.1 hn).2.1, rfl, rfl⟩
  | word w =>
    rw [tick_of_word keys hn]
    exact ((h.fetched keys hn).effect (effect_execute ..)).countDownIfRunning

end Steps

theorem Reachable.sound {s : Machine} (h : Reachable s) : Sound s := by
  induction h with
  | fresh key carryIndex => exact fresh_sound key carryIndex
  | load program _ ih => exact ih.loadOrKeep program
  | tick keys _ ih => exact ih.tick keys

end Machine

end Chip8
