/-
What one instruction and one tick can do to a machine. `obstacle?` names the fault that stops an
instruction before it does anything; `Effect` lists, part by part, what an instruction can change
otherwise. Invariants of the machine are proven by cases on `Effect`, without looking at `execute`
again.
-/
import Chip8.Machine.Tick
import Chip8.Proofs.Instruction

namespace Chip8

namespace Machine

/-! ## Instructions that are stopped -/

/-- Not all bytes from the index register on that an instruction reads or writes lie in memory. -/
def Overruns (s : Machine) (i : Instruction) : Prop :=
  0 < i.span ∧ ¬ Memory.Fits s.index.toNat i.span

instance (s : Machine) (i : Instruction) : Decidable (s.Overruns i) :=
  inferInstanceAs (Decidable (_ ∧ _))

theorem not_overruns_draw (s : Machine) (x y n : Fin 16) :
    ¬ s.Overruns (.draw x y n) ↔ n = 0 ∨ Memory.Fits s.index.toNat n := by
  simp [Overruns, Instruction.span, Nat.pos_iff_ne_zero, Classical.or_iff_not_imp_left]

theorem not_overruns_storeDigits (s : Machine) (x : Fin 16) :
    ¬ s.Overruns (.storeDigits x) ↔ Memory.Fits s.index.toNat 3 := by
  simp [Overruns, Instruction.span]

theorem not_overruns_storeRegisters (s : Machine) (x : Fin 16) :
    ¬ s.Overruns (.storeRegisters x) ↔ Memory.Fits s.index.toNat (x + 1) := by
  simp [Overruns, Instruction.span]

theorem not_overruns_loadRegisters (s : Machine) (x : Fin 16) :
    ¬ s.Overruns (.loadRegisters x) ↔ Memory.Fits s.index.toNat (x + 1) := by
  simp [Overruns, Instruction.span]

/-- The fault that stops an instruction. -/
def obstacle? (s : Machine) : Instruction → Option Fault
  | .ret => if s.stack.isEmpty then some .stackUnderflow else none
  | .call _ => if s.stack.isFull then some .stackOverflow else none
  | i => if s.Overruns i then some .memoryBounds else none

theorem obstacle?_of_overruns {s : Machine} {i : Instruction} (h : s.Overruns i) :
    s.obstacle? i = some .memoryBounds := by
  cases i with
  | ret | call => exact absurd h.1 (Nat.lt_irrefl 0)
  | _ => exact if_pos h

theorem not_overruns_of_clear {s : Machine} {i : Instruction} (h : s.obstacle? i = none) :
    ¬ s.Overruns i := by
  intro ho
  rw [obstacle?_of_overruns ho] at h
  cases h

/-- A stopped instruction does nothing but halt the machine at its own address. -/
theorem execute_of_obstacle {s : Machine} {i : Instruction} {f : Fault} (h : s.obstacle? i = some f) :
    s.execute i = s.haltBack f := by
  cases i <;> simp only [obstacle?, Option.ite_none_right_eq_some, Option.some.injEq] at h <;>
    obtain ⟨h, rfl⟩ := h
  case ret => exact if_pos h
  case call => exact if_pos h
  case draw => exact if_neg fun hfit => (not_overruns_draw ..).2 hfit h
  case storeDigits => exact if_neg fun hfit => (not_overruns_storeDigits ..).2 hfit h
  case storeRegisters => exact if_neg fun hfit => (not_overruns_storeRegisters ..).2 hfit h
  case loadRegisters => exact if_neg fun hfit => (not_overruns_loadRegisters ..).2 hfit h
  -- the other instructions need no byte of memory
  all_goals exact absurd h.1 (by simp [Instruction.span])

/-! ## Effects -/

/-- What an instruction makes of a machine, by the parts that it can change. -/
inductive Effect (s : Machine) : Instruction → Machine → Prop where
  | stopped {i : Instruction} {f : Fault} (h : s.obstacle? i = some f) : Effect s i (s.haltBack f)
  | idle {i : Instruction} : Effect s i s
  | skip {i : Instruction} : Effect s i { s with pc := s.pc + 2 }
  | jump {i : Instruction} (a : Nat) (h : a ≤ 0x10FE) : Effect s i { s with pc := UInt16.ofNat a }
  | call {a : Fin 4096} (h : s.stack.isFull = false) :
    Effect s (.call a) { s with stack := s.stack.push s.pc, pc := UInt16.ofNat a }
  | ret (h : s.stack.isEmpty = false) :
    Effect s .ret { s with stack := s.stack.pop.1, pc := s.stack.pop.2 }
  | registers {i : Instruction} (v : Registers) : Effect s i { s with registers := v }
  | index {i : Instruction} (a : UInt16) (v : Registers) : Effect s i { s with index := a, registers := v }
  | random {x : Fin 16} {mask : UInt8} (v : Registers) :
    Effect s (.random x mask) { s with registers := v, random := s.random.next }
  | delay {x : Fin 16} : Effect s (.setDelay x) { s with delay := s.register x }
  | sound {x : Fin 16} : Effect s (.setSound x) { s with sound := s.register x }
  | memory {i : Instruction} (m : Memory) : Effect s i { s with memory := m }
  | clear : Effect s .clear { s with screen := Screen.blank, redraw := true }
  | draw {x y n : Fin 16} (sprite : Sprite) (left top : Nat) (v : Registers) :
    Effect s (.draw x y n)
      { s with screen := s.screen.flip (Screen.place sprite left top), registers := v, redraw := true }
  | wait {x : Fin 16} : Effect s (.waitKey x) { s with awaiting := true, keyRegister := UInt8.ofNat x }

theorem effect_setResult (s : Machine) (i : Instruction) (x : Fin 16) (r : UInt8 × Option Bool) :
    Effect s i (s.setResult x r) := by
  unfold setResult
  split
  · exact .registers _
  · exact .registers _

theorem effect_skipIf (s : Machine) (i : Instruction) (c : Bool) : Effect s i (s.skipIf c) := by
  cases c with
  | true => exact .skip
  | false => exact .idle

theorem effect_waitKey (s : Machine) (x : Fin 16) : Effect s (.waitKey x) (s.waitKey x) := by
  unfold waitKey
  split
  · exact .registers _
  · exact .wait

theorem effect_addIndex (s : Machine) (x : Fin 16) : Effect s (.addIndex x) (s.addIndex x) := by
  unfold addIndex
  split
  · exact .index _ _
  · exact .index _ s.registers

theorem execute_call {s : Machine} (hf : s.stack.isFull = false) (a : Fin 4096) :
    s.execute (.call a) = { s with stack := s.stack.push s.pc, pc := UInt16.ofNat a } :=
  if_neg (by simp [hf])

theorem execute_ret {s : Machine} (he : s.stack.isEmpty = false) :
    s.execute .ret = { s with stack := s.stack.pop.1, pc := s.stack.pop.2 } :=
  if_neg (by simp [he])

/-- An instruction that nothing stops. -/
theorem effect_of_clear {s : Machine} {i : Instruction} (h : s.obstacle? i = none) :
    Effect s i (s.execute i) := by
  cases i with
  | clear => exact .clear
  | ret =>
    have he : s.stack.isEmpty = false := by simpa [obstacle?] using h
    rw [execute_ret he]
    exact .ret he
  | call a =>
    have hf : s.stack.isFull = false := by simpa [obstacle?] using h
    rw [execute_call hf]
    exact .call hf
  | jump a => exact .jump a (by omega)
  | jumpOffset a =>
    have := UInt8.toNat_lt (s.register 0)
    exact .jump _ (by omega)
  | skipEqualByte | skipUnequalByte | skipEqual | skipUnequal | skipDown | skipUp =>
    exact effect_skipIf s _ _
  | alu | shiftRight | shiftLeft =>
    rw [execute]
    exact effect_setResult s _ _ _
  | setByte | addByte | getDelay => exact .registers _
  | setIndex | glyph => exact .index _ s.registers
  | addIndex x => exact effect_addIndex s x
  | random x mask => exact .random _
  | setDelay x => exact .delay
  | setSound x => exact .sound
  | waitKey x => exact effect_waitKey s x
  | unknown w => exact .idle
  | draw x y n =>
    rw [execute, Machine.draw, if_pos ((not_overruns_draw ..).1 (not_overruns_of_clear h))]
    exact .draw _ _ _ _
  | storeDigits x =>
    rw [execute, storeDigits, if_pos ((not_overruns_storeDigits ..).1 (not_overruns_of_clear h))]
    exact .memory _
  | storeRegisters x =>
    rw [execute, storeRegisters, if_pos ((not_overruns_storeRegisters ..).1 (not_overruns_of_clear h))]
    exact .memory _
  | loadRegisters x =>
    rw [execute, loadRegisters, if_pos ((not_overruns_loadRegisters ..).1 (not_overruns_of_clear h))]
    exact .registers _

theorem effect_execute (s : Machine) (i : Instruction) : Effect s i (s.execute i) := by
  cases h : s.obstacle? i with
  | none => exact effect_of_clear h
  | some f =>
    rw [execute_of_obstacle h]
    exact .stopped h

/-- Only a stopped instruction halts a machine. -/
theorem Effect.fault_eq {s t : Machine} {i : Instruction} (e : Effect s i t) (h : s.obstacle? i = none) :
    t.fault = s.fault := by
  cases e with
  | stopped h' => rw [h] at h'; cases h'
  | _ => rfl

/-- Whether `ADD I` reports in `VF` is settled when the machine is made. -/
theorem Effect.carryIndex_eq {s t : Machine} {i : Instruction} (e : Effect s i t) :
    t.carryIndex = s.carryIndex := by
  cases e <;> rfl

/-! ## Ticks -/

section Frame

variable (s : Machine)

@[simp] theorem countDownIfRunning_pc : s.countDownIfRunning.pc = s.pc := by
  unfold countDownIfRunning
  split <;> rfl

@[simp] theorem countDownIfRunning_stack : s.countDownIfRunning.stack = s.stack := by
  unfold countDownIfRunning
  split <;> rfl

@[simp] theorem countDownIfRunning_fault : s.countDownIfRunning.fault = s.fault := by
  unfold countDownIfRunning
  split <;> rfl

theorem countDownIfRunning_memory : s.countDownIfRunning.memory = s.memory := by
  unfold countDownIfRunning
  split <;> rfl

theorem countDownIfRunning_index : s.countDownIfRunning.index = s.index := by
  unfold countDownIfRunning
  split <;> rfl

theorem countDownIfRunning_register (r : Fin 16) :
    s.countDownIfRunning.register r = s.register r := by
  unfold countDownIfRunning
  split <;> rfl

theorem countDownIfRunning_random : s.countDownIfRunning.random = s.random := by
  unfold countDownIfRunning
  split <;> rfl

theorem countDownIfRunning_awaiting : s.countDownIfRunning.awaiting = s.awaiting := by
  unfold countDownIfRunning
  split <;> rfl

theorem countDownIfRunning_carryIndex : s.countDownIfRunning.carryIndex = s.carryIndex := by
  unfold countDownIfRunning
  split <;> rfl

@[simp] theorem resume_stack : s.resume.stack = s.stack := by
  unfold resume
  split <;> rfl

@[simp] theorem resume_fault : s.resume.fault = s.fault := by
  unfold resume
  split <;> rfl

theorem resume_memory : s.resume.memory = s.memory := by
  unfold resume
  split <;> rfl

theorem resume_index : s.resume.index = s.index := by
  unfold resume
  split <;> rfl

theorem resume_random : s.resume.random = s.random := by
  unfold resume
  split <;> rfl

theorem resume_carryIndex : s.resume.carryIndex = s.carryIndex := by
  unfold resume
  split <;> rfl

end Frame

section Next

variable {s : Machine}

theorem next_eq_halted_iff : s.next = .halted ↔ s.fault ≠ 0 := by
  grind [next]

theorem next_eq_awaiting_iff : s.next = .awaiting ↔ s.fault = 0 ∧ s.awaiting = true := by
  grind [next]

theorem next_eq_overrun_iff :
    s.next = .overrun ↔ s.fault = 0 ∧ s.awaiting = false ∧ ¬ Memory.Fits s.pc.toNat 2 := by
  grind [next]

theorem next_eq_word_iff {w : UInt16} : s.next = .word w ↔
    s.fault = 0 ∧ s.awaiting = false ∧ Memory.Fits s.pc.toNat 2 ∧ s.memory.word s.pc = w := by
  grind [next, fetch]

theorem nextWord?_eq_some_iff {w : UInt16} : s.nextWord? = some w ↔ s.next = .word w := by
  unfold nextWord?
  split <;> simp_all

variable (keys : Keypad)

theorem tick_of_halted (h : s.next = .halted) : s.tick keys = s.sample keys := by
  rw [tick, h]

theorem tick_of_awaiting (h : s.next = .awaiting) :
    s.tick keys = (s.sample keys).resume.countDownIfRunning := by
  rw [tick, h]

theorem tick_of_overrun (h : s.next = .overrun) : s.tick keys = (s.sample keys).halt .memoryBounds := by
  rw [tick, h]

theorem tick_of_word {w : UInt16} (h : s.next = .word w) :
    s.tick keys = ((s.sample keys).fetch.1.execute (.ofWord w.toNat)).countDownIfRunning := by
  rw [tick, h]

end Next

/-- Nothing that a tick does besides executing its word changes what `p` reads of a machine. -/
structure ByInstructions {α : Type} (p : Machine → α) : Prop where
  sample : ∀ s keys, p (sample s keys) = p s
  halt : ∀ s f, p (halt s f) = p s
  resume : ∀ s, p (resume s) = p s
  countDown : ∀ s, p (countDownIfRunning s) = p s

/-- A tick then leaves it alone, or its word makes of it what the tick makes of it. -/
theorem ByInstructions.tick {α : Type} {p : Machine → α} (h : ByInstructions p) (s : Machine)
    (keys : Keypad) : p (s.tick keys) = p s ∨ ∃ w, s.next = .word w ∧
      p (s.tick keys) = p ((s.sample keys).fetch.1.execute (.ofWord w.toNat)) := by
  cases hn : s.next with
  | halted =>
    rw [tick_of_halted keys hn]
    exact .inl (h.sample s keys)
  | overrun =>
    rw [tick_of_overrun keys hn, h.halt]
    exact .inl (h.sample s keys)
  | awaiting =>
    rw [tick_of_awaiting keys hn, h.countDown, h.resume]
    exact .inl (h.sample s keys)
  | word w =>
    rw [tick_of_word keys hn, h.countDown]
    exact .inr ⟨w, rfl, rfl⟩

theorem byInstructions_memory : ByInstructions memory :=
  ⟨fun _ _ => rfl, fun _ _ => rfl, resume_memory, countDownIfRunning_memory⟩

theorem byInstructions_index : ByInstructions index :=
  ⟨fun _ _ => rfl, fun _ _ => rfl, resume_index, countDownIfRunning_index⟩

theorem byInstructions_stack : ByInstructions stack :=
  ⟨fun _ _ => rfl, fun _ _ => rfl, resume_stack, countDownIfRunning_stack⟩

theorem byInstructions_random : ByInstructions random :=
  ⟨fun _ _ => rfl, fun _ _ => rfl, resume_random, countDownIfRunning_random⟩

theorem byInstructions_carryIndex : ByInstructions carryIndex :=
  ⟨fun _ _ => rfl, fun _ _ => rfl, resume_carryIndex, countDownIfRunning_carryIndex⟩

theorem run_cons (s : Machine) (k : Keypad) (ks : List Keypad) : s.run (k :: ks) = (s.tick k).run ks :=
  rfl

theorem run_concat (s : Machine) (ks : List Keypad) (k : Keypad) :
    s.run (ks ++ [k]) = (s.run ks).tick k :=
  List.foldl_append

theorem run_take_succ (s : Machine) {ks : List Keypad} {n : Nat} (h : n < ks.length) :
    s.run (ks.take (n + 1)) = (s.run (ks.take n)).tick ks[n] := by
  rw [List.take_succ_eq_append_getElem h, run_concat]

end Machine

end Chip8
