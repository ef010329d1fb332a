/-
Halts: which machines fail, what a failing tick leaves behind, and what a halted machine tells about
itself from then on. `Fails` reads the memory, the stack and the index register of a machine before
the tick; a failing tick changes none of them, so that the halted machine still fails in the same
way, and its report stays true for good.
-/
import Chip8.Machine.Report
import Chip8.Proofs.Machine.Invariant

namespace Chip8

theorem Fault.code_ne_zero (f : Fault) : f.code ≠ 0 := by
  cases f <;> decide

/-- The number of a fault is never reported as an undefined one. -/
theorem Halt.of?_code (f : Fault) (pc index : Int) :
    Halt.of? f.code.toNat pc index = some (.fault f pc index) := by
  cases f <;> rfl

namespace Machine

/-! ## Failing -/

/-- The number in the two bytes at the program counter. -/
def here (s : Machine) : Nat := s.memory.wordAt s.pc.toNat

/-- A word `w` needs bytes past the end of memory at the index `i`: `DXYN`, `FX33`, `FX55` or `FX65`. -/
def Leaves (w i : Nat) : Prop :=
  w / 0x1000 = 0xD ∧ 0 < w % 0x10 ∧ 4096 < i + w % 0x10 ∨
  w / 0x1000 = 0xF ∧ w % 0x100 = 0x33 ∧ 4096 < i + 3 ∨
  w / 0x1000 = 0xF ∧ (w % 0x100 = 0x55 ∨ w % 0x100 = 0x65) ∧ 4096 < i + w / 0x100 % 0x10 + 1

/-- What is wrong with a machine that fails: `2NNN` on a full stack, `00EE` on an empty one, or the
word itself or the bytes that it needs not in memory. -/
def Fails (s : Machine) : Fault → Prop
  | .stackOverflow => s.pc.toNat + 2 ≤ 4096 ∧ s.here / 0x1000 = 2 ∧ 16 ≤ s.stack.pointer.toNat
  | .stackUnderflow => s.pc.toNat + 2 ≤ 4096 ∧ s.here = 0x00EE ∧ s.stack.pointer.toNat = 0
  | .memoryBounds =>
    4096 < s.pc.toNat + 2 ∨ s.pc.toNat + 2 ≤ 4096 ∧ Leaves s.here s.index.toNat

instance (w i : Nat) : Decidable (Leaves w i) :=
  inferInstanceAs (Decidable (_ ∨ _ ∨ _))

instance (s : Machine) : (f : Fault) → Decidable (s.Fails f)
  | .stackOverflow => inferInstanceAs (Decidable (_ ∧ _ ∧ _))
  | .stackUnderflow => inferInstanceAs (Decidable (_ ∧ _ ∧ _))
  | .memoryBounds => inferInstanceAs (Decidable (_ ∨ _ ∧ _))

section Obstacles

variable {s : Machine} {i : Instruction}

theorem obstacle?_eq_stackOverflow_iff :
    s.obstacle? i = some .stackOverflow ↔ (∃ a, i = .call a) ∧ 16 ≤ s.stack.pointer.toNat := by
  cases i <;> simp [obstacle?, CallStack.isFull, UInt8.le_iff_toNat_le]

theorem obstacle?_eq_stackUnderflow_iff :
    s.obstacle? i = some .stackUnderflow ↔ i = .ret ∧ s.stack.pointer.toNat = 0 := by
  cases i <;> simp [obstacle?, CallStack.isEmpty, ← UInt8.toNat_inj]

theorem obstacle?_eq_memoryBounds_iff : s.obstacle? i = some .memoryBounds ↔ s.Overruns i := by
  constructor
  · intro h
    cases i <;> simp_all [obstacle?]
  · exact obstacle?_of_overruns

/-- What leaves the machine running was not stopped. -/
theorem obstacle?_eq_none_of_fault (h : (s.execute i).fault = 0) : s.obstacle? i = none := by
  cases ho : s.obstacle? i with
  | none => rfl
  | some f =>
    rw [execute_of_obstacle ho] at h
    exact absurd h (Fault.code_ne_zero f)

theorem overruns_ofWord_iff {w : Nat} (h : w < 65536) :
    s.Overruns (.ofWord w) ↔ Leaves w s.index.toNat := by
  unfold Overruns Leaves Memory.Fits
  rw [Instruction.span_ofWord h]
  grind

/-- Where there is a word, a machine fails as the instruction of the word is stopped. -/
theorem fails_iff (hm : Memory.Fits s.pc.toNat 2) (f : Fault) :
    s.Fails f ↔ s.obstacle? (.ofWord (s.memory.word s.pc).toNat) = some f := by
  have hw : (s.memory.word s.pc).toNat = s.here := Memory.toNat_word _ hm
  have hlt : s.here < 65536 := hw ▸ (s.memory.word s.pc).toNat_lt
  have hm' : s.pc.toNat + 2 ≤ 4096 := hm
  rw [hw]
  cases f with
  | stackOverflow =>
    rw [obstacle?_eq_stackOverflow_iff, Instruction.ofWord_eq_call_iff hlt]
    exact and_iff_right hm'
  | stackUnderflow =>
    rw [obstacle?_eq_stackUnderflow_iff, Instruction.ofWord_eq_ret_iff hlt]
    exact and_iff_right hm'
  | memoryBounds =>
    -- the word lies in memory, so only the bytes that it needs can be missing
    rw [obstacle?_eq_memoryBounds_iff, overruns_ofWord_iff hlt]
    constructor
    · rintro (h | ⟨-, h⟩)
      · omega
      · exact h
    · exact fun h => .inr ⟨hm', h⟩

end Obstacles

/-! ## The failing tick -/

section Tick

variable {s : Machine}

/-- Going back to a word just read leaves the program counter where it was. -/
theorem haltBack_fetch (s : Machine) (f : Fault) : s.fetch.1.haltBack f = s.halt f := by
  rw [haltBack, fetch, UInt16.add_sub_cancel]
  rfl

/-- A failing machine keeps all it has but for the fault and what describes the tick. -/
theorem tick_of_fails (h : s.fault = 0) (ha : s.awaiting = false) {f : Fault} (hf : s.Fails f)
    (keys : Keypad) :
    s.tick keys = { s with fault := f.code, keypad := keys, redraw := false, beeping := false } := by
  by_cases hm : Memory.Fits s.pc.toNat 2
  · have ho : (s.sample keys).fetch.1.obstacle? (.ofWord (s.memory.word s.pc).toNat) = some f :=
      (fails_iff hm f).1 hf
    rw [tick_of_word keys (next_eq_word_iff.2 ⟨h, ha, hm, rfl⟩), execute_of_obstacle ho, haltBack_fetch]
    exact if_neg (Fault.code_ne_zero f)
  · -- without a word there is neither a call nor a return
    cases f with
    | stackOverflow | stackUnderflow => exact absurd hf.1 hm
    | memoryBounds => exact tick_of_overrun keys (next_eq_overrun_iff.2 ⟨h, ha, hm⟩)

theorem fault_tick_of_not_fails (h : s.fault = 0) (hn : ∀ f, s.awaiting = false → ¬ s.Fails f)
    (keys : Keypad) : (s.tick keys).fault = 0 := by
  by_cases ha : s.awaiting = true
  · rw [tick_of_awaiting keys (next_eq_awaiting_iff.2 ⟨h, ha⟩), countDownIfRunning_fault, resume_fault]
    exact h
  · rw [Bool.not_eq_true] at ha
    have hm : Memory.Fits s.pc.toNat 2 := by
      have := hn .memoryBounds ha
      simp only [Fails, not_or] at this
      omega
    have ho : (s.sample keys).fetch.1.obstacle? (.ofWord (s.memory.word s.pc).toNat) = none := by
      rw [Option.eq_none_iff_forall_ne_some]
      intro f hf
      exact hn f ha ((fails_iff hm f).2 hf)
    rw [tick_of_word keys (next_eq_word_iff.2 ⟨h, ha, hm, rfl⟩), countDownIfRunning_fault,
      (effect_execute _ _).fault_eq ho]
    exact h

theorem fails_of_fault_tick (h : s.fault = 0) {keys : Keypad} (hne : (s.tick keys).fault ≠ 0) :
    s.awaiting = false ∧ ∃ f, s.Fails f := by
  apply Classical.byContradiction
  intro hno
  exact hne (fault_tick_of_not_fails h (fun f ha hf => hno ⟨ha, f, hf⟩) keys)

/-- A tick halts a running machine exactly if the machine fails, and then changes nothing else. -/
theorem tick_fault_exact (h : s.fault = 0) (keys : Keypad) :
    ((s.tick keys).fault ≠ 0 ↔ s.awaiting = false ∧ ∃ f, s.Fails f) ∧
      ∀ f, s.awaiting = false → s.Fails f →
        s.tick keys = { s with fault := f.code, keypad := keys, redraw := false, beeping := false } := by
  refine ⟨⟨fails_of_fault_tick h, ?_⟩, fun f ha hf => tick_of_fails h ha hf keys⟩
  rintro ⟨ha, f, hf⟩
  rw [tick_of_fails h ha hf]
  exact Fault.code_ne_zero f

end Tick

/-- Storing sixteen registers one byte too far up. -/
theorem tick_fault_exact_storeRegisters :
    let s := { (fresh (.ofSeed 0) true).withProgram [0xFF, 0x55] with index := 0xFF1 }
    s.fault = 0 ∧ s.Fails .memoryBounds ∧ ∀ keys, (s.tick keys).fault ≠ 0 ∧
      s.tick keys = { s with fault := 3, keypad := keys, redraw := false, beeping := false } := by
  intro s
  have hf : s.Fails .memoryBounds := by decide +kernel
  refine ⟨rfl, hf, fun keys => ?_⟩
  obtain ⟨hiff, heq⟩ := tick_fault_exact (s := s) rfl keys
  exact ⟨hiff.2 ⟨rfl, _, hf⟩, heq _ rfl hf⟩

/-! ## Halted machines -/

/-- A fault has halted the machine for good, and the machine tells the truth about it. -/
structure HaltedBy (s : Machine) (f : Fault) : Prop where
  code : s.fault = f.code
  /-- Ticks only store the keys that they see. -/
  still : ∀ more, s.run more = { s with keypad := more.getLastD s.keypad }
  /-- The report stays the same. -/
  report : ∀ more, (s.run more).halt? = some (.fault f s.pc.toNat s.index.toNat)
  /-- The memory, the stack and the index register explain the fault. -/
  cause : s.Fails f
  full : f = .stackOverflow → s.stack.pointer = 16

/-- If the machine has halted, what it failed from is still to be seen. -/
def Diagnosed (s : Machine) : Prop := s.fault ≠ 0 → ∃ f : Fault, s.fault = f.code ∧ s.Fails f

section Halted

variable {s : Machine}

theorem Diagnosed.tick (h : s.Diagnosed) (keys : Keypad) : (s.tick keys).Diagnosed := by
  intro hne
  by_cases hf : s.fault = 0
  · obtain ⟨ha, f, hfails⟩ := fails_of_fault_tick hf hne
    rw [tick_of_fails hf ha hfails]
    -- `Fails` looks at nothing that the failing tick changes
    exact ⟨f, rfl, hfails⟩
  · rw [tick_of_halted keys (next_eq_halted_iff.2 hf)]
    exact h hf

theorem Diagnosed.run (h : s.Diagnosed) (samples : List Keypad) : (s.run samples).Diagnosed := by
  induction samples generalizing s with
  | nil => exact h
  | cons k ks ih => exact ih (h.tick k)

theorem tick_of_quiet (hs : s.Sound) (h : s.fault ≠ 0) (keys : Keypad) :
    s.tick keys = { s with keypad := keys } := by
  obtain ⟨-, hr, hb⟩ := hs.quiet h
  rw [tick_of_halted keys (next_eq_halted_iff.2 h), sample, hr, hb]

theorem run_of_halted (hs : s.Sound) (h : s.fault ≠ 0) (more : List Keypad) :
    s.run more = { s with keypad := more.getLastD s.keypad } := by
  induction more generalizing s with
  | nil => rfl
  | cons k ks ih =>
    have hk := tick_of_quiet hs h k
    rw [run_cons, ih (hs.tick k) (by rw [hk]; exact h), hk, List.getLastD_cons]

theorem Diagnosed.haltedBy (hd : s.Diagnosed) (hs : s.Sound) (h : s.fault ≠ 0) : ∃ f, s.HaltedBy f := by
  obtain ⟨f, hf, hfails⟩ := hd h
  refine ⟨f, hf, run_of_halted hs h, fun more => ?_, hfails, ?_⟩
  · rw [run_of_halted hs h, halt?, hf]
    exact Halt.of?_code f _ _
  · rintro rfl
    have hge : 16 ≤ s.stack.pointer.toNat := hfails.2.2
    have hle := hs.stack.pointer_le
    exact UInt8.toNat_inj.1 (Nat.le_antisymm hle hge)

/-- Whatever program is loaded and whatever keys are seen, the machine runs and reports no halt, or
it has halted for good with a report that its memory, stack and index register explain. -/
theorem run_halts_for_good (seed : Int) (carryIndex : Bool) {program : List UInt8}
    (hfit : program.length ≤ programCapacity) :
    ∃ s, (fresh (.ofSeed seed) carryIndex).load program = .ok s ∧
      ∀ samples, ((s.run samples).fault = 0 → (s.run samples).halt? = none) ∧
        ((s.run samples).fault ≠ 0 → ∃ f, (s.run samples).HaltedBy f) := by
  have hn : ¬ programCapacity < program.length := Nat.not_lt.2 hfit
  refine ⟨_, if_neg hn, fun samples => ?_⟩
  have hr : Reachable ((fresh (.ofSeed seed) carryIndex).withProgram program) := by
    have := Reachable.load program (.fresh (.ofSeed seed) carryIndex)
    rwa [loadOrKeep_eq, if_neg hn] at this
  have hd : Diagnosed ((fresh (.ofSeed seed) carryIndex).withProgram program) :=
    fun hne => absurd rfl hne
  constructor
  · intro hf
    rw [halt?, hf]
    rfl
  · exact (hd.run samples).haltedBy (hr.run samples).sound

end Halted

/-- A return with nothing to return to. -/
theorem run_halts_for_good_return :
    let s := ((fresh (.ofSeed 0) true).withProgram [0x00, 0xEE]).run [Keypad.released]
    s.fault = 2 ∧ ∃ f, s.HaltedBy f := by
  intro s
  have hfit : ([0x00, 0xEE] : List UInt8).length ≤ programCapacity := by decide
  have hs : s.fault = 2 := by decide +kernel
  have hne : s.fault ≠ 0 := by
    rw [hs]
    decide
  obtain ⟨t, hload, hrun⟩ := run_halts_for_good 0 true hfit
  obtain rfl : (fresh (.ofSeed 0) true).withProgram [0x00, 0xEE] = t := Except.ok.inj hload
  exact ⟨hs, (hrun [Keypad.released]).2 hne⟩

end Machine

end Chip8
