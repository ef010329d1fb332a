/-
The frame of an instruction: which words can change which part of a machine. A stopped word moves
the program counter back to itself and sets the fault. Any other word changes the parts that belong
to its family and no others: `Frame.refl` says that a machine that is left alone has every frame,
and each instruction takes from it all parts but those that it writes.
-/
import Chip8.Proofs.Machine.Halt

namespace Chip8.Machine

/-! ## Operands of words -/

section Operands

variable (s : Machine) (w : Nat)

/-- The register that the second digit of a word names. -/
def first : UInt8 := s.register ⟨w / 0x100 % 0x10, Nat.mod_lt _ (by decide)⟩

/-- The register that the third digit of a word names. -/
def second : UInt8 := s.register ⟨w / 0x10 % 0x10, Nat.mod_lt _ (by decide)⟩

variable {s w}

theorem first_eq {x : Fin 16} (h : x.val = w / 0x100 % 0x10) : s.first w = s.register x :=
  congrArg s.register (Fin.ext h.symm)

theorem second_eq {y : Fin 16} (h : y.val = w / 0x10 % 0x10) : s.second w = s.register y :=
  congrArg s.register (Fin.ext h.symm)

end Operands

/-! ## Families of words -/

section Families

variable (w : Nat)

/-- Words that write a register named by their second digit. -/
def WritesOperand : Prop :=
  w / 0x1000 = 0x6 ∨ w / 0x1000 = 0x7 ∨ w / 0x1000 = 0xC ∨
  w / 0x1000 = 0x8 ∧ (w % 0x10 ≤ 0x7 ∨ w % 0x10 = 0xE) ∨
  w / 0x1000 = 0xF ∧ (w % 0x100 = 0x07 ∨ w % 0x100 = 0x0A)

/-- Words that write a flag to `VF`, `FX1E` among them only with `carryIndex`. -/
def WritesFlag (carryIndex : Bool) : Prop :=
  w / 0x1000 = 0x8 ∧ (0x4 ≤ w % 0x10 ∧ w % 0x10 ≤ 0x7 ∨ w % 0x10 = 0xE) ∨
  w / 0x1000 = 0xD ∨
  carryIndex = true ∧ w / 0x1000 = 0xF ∧ w % 0x100 = 0x1E

/-- The registers that a word can change. -/
def WritesRegister (carryIndex : Bool) (r : Fin 16) : Prop :=
  r.val = w / 0x100 % 0x10 ∧ WritesOperand w ∨
  r.val = 0xF ∧ WritesFlag w carryIndex ∨
  r.val ≤ w / 0x100 % 0x10 ∧ w / 0x1000 = 0xF ∧ w % 0x100 = 0x65

/-- Jumps, calls, returns and skips. -/
def Branches : Prop :=
  w / 0x1000 = 0x1 ∨ w / 0x1000 = 0x2 ∨ w / 0x1000 = 0x3 ∨ w / 0x1000 = 0x4 ∨ w / 0x1000 = 0x5 ∨
  w / 0x1000 = 0x9 ∨ w / 0x1000 = 0xB ∨
  w / 0x1000 = 0xE ∧ (w % 0x100 = 0x9E ∨ w % 0x100 = 0xA1) ∨
  w = 0x00EE

/-- Words that can halt a machine. -/
def CanHalt : Prop :=
  w / 0x1000 = 0x2 ∨ w = 0x00EE ∨ w / 0x1000 = 0xD ∨
  w / 0x1000 = 0xF ∧ (w % 0x100 = 0x33 ∨ w % 0x100 = 0x55 ∨ w % 0x100 = 0x65)

/-- A call on a full stack, a return on an empty one, or a word that needs bytes past the end of
memory. -/
def Stops (s : Machine) : Prop :=
  w / 0x1000 = 0x2 ∧ 16 ≤ s.stack.pointer.toNat ∨
  w = 0x00EE ∧ s.stack.pointer.toNat = 0 ∨
  Leaves w s.index.toNat

end Families

section Stopped

variable {s : Machine} {w : Nat}

theorem stops_iff (h : w < 65536) : Stops w s ↔ ∃ f, s.obstacle? (.ofWord w) = some f := by
  rw [Stops, ← Instruction.ofWord_eq_call_iff h, ← Instruction.ofWord_eq_ret_iff h,
    ← overruns_ofWord_iff h, ← obstacle?_eq_stackOverflow_iff, ← obstacle?_eq_stackUnderflow_iff,
    ← obstacle?_eq_memoryBounds_iff]
  constructor
  · rintro (h | h | h) <;> exact ⟨_, h⟩
  · rintro ⟨f, h⟩
    cases f with
    | stackOverflow => exact .inl h
    | stackUnderflow => exact .inr (.inl h)
    | memoryBounds => exact .inr (.inr h)

theorem Stops.canHalt (h : Stops w s) : CanHalt w := by
  rcases h with ⟨h, -⟩ | ⟨h, -⟩ | ⟨h, -⟩ | ⟨h, h33, -⟩ | ⟨h, hkk, -⟩
  · exact .inl h
  · exact .inr (.inl h)
  · exact .inr (.inr (.inl h))
  · exact .inr (.inr (.inr ⟨h, .inl h33⟩))
  · exact .inr (.inr (.inr ⟨h, .inr hkk⟩))

end Stopped

/-! ## Frames -/

/-- `t` differs from `s` at most where the word `w` may make a difference. -/
structure Frame (w : Nat) (s t : Machine) : Prop where
  memory : t.memory = s.memory ∨ w / 0x1000 = 0xF ∧ (w % 0x100 = 0x33 ∨ w % 0x100 = 0x55)
  screen : t.screen = s.screen ∧ t.redraw = s.redraw ∨ w = 0x00E0 ∨ w / 0x1000 = 0xD
  stack : t.stack = s.stack ∨ w / 0x1000 = 0x2 ∨ w = 0x00EE
  index : t.index = s.index ∨ w / 0x1000 = 0xA ∨
    w / 0x1000 = 0xF ∧ (w % 0x100 = 0x1E ∨ w % 0x100 = 0x29)
  delay : t.delay = s.delay ∨ w / 0x1000 = 0xF ∧ w % 0x100 = 0x15
  sound : t.sound = s.sound ∨ w / 0x1000 = 0xF ∧ w % 0x100 = 0x18
  waiting : t.awaiting = s.awaiting ∧ t.keyRegister = s.keyRegister ∨
    w / 0x1000 = 0xF ∧ w % 0x100 = 0x0A
  random : t.random = s.random ∨ w / 0x1000 = 0xC
  fault : t.fault = s.fault ∨ CanHalt w
  never : t.keypad = s.keypad ∧ t.beeping = s.beeping ∧ t.carryIndex = s.carryIndex
  registers : ∀ r, t.register r = s.register r ∨ WritesRegister w s.carryIndex r
  pc : t.pc = s.pc ∨ Branches w ∨ Stops w s ∧ t.pc = s.pc - 2

section Instructions

variable {s : Machine} {w : Nat}

theorem Frame.refl (w : Nat) (s : Machine) : Frame w s s where
  memory := .inl rfl
  screen := .inl ⟨rfl, rfl⟩
  stack := .inl rfl
  index := .inl rfl
  delay := .inl rfl
  sound := .inl rfl
  waiting := .inl ⟨rfl, rfl⟩
  random := .inl rfl
  fault := .inl rfl
  never := ⟨rfl, rfl, rfl⟩
  registers _ := .inl rfl
  pc := .inl rfl

theorem frame_haltBack (h : Stops w s) (f : Fault) : Frame w s (s.haltBack f) :=
  { Frame.refl w s with
    fault := .inr h.canHalt
    pc := .inr (.inr ⟨h, rfl⟩) }

theorem frame_skipIf (hw : Branches w) (c : Bool) : Frame w s (s.skipIf c) := by
  cases c with
  | true => exact { Frame.refl w s with pc := .inr (.inl hw) }
  | false => exact Frame.refl w s

theorem register_setRegister (s : Machine) (x r : Fin 16) (v : UInt8) :
    (s.setRegister x v).register r = if x = r then v else s.register r := by
  have hget : (s.registers.set x v)[r.val] = if x.val = r.val then v else s.registers[r.val] :=
    Vector.getElem_set x.isLt r.isLt
  simp only [← Fin.ext_iff] at hget
  exact hget

/-- One register after another, each of which the word may write. -/
theorem Frame.setRegister {t : Machine} (h : Frame w s t) {x : Fin 16}
    (hw : WritesRegister w s.carryIndex x) (v : UInt8) : Frame w s (t.setRegister x v) := by
  refine { h with registers := fun r => ?_ }
  rw [register_setRegister]
  split
  · next hr => exact .inr (hr ▸ hw)
  · exact h.registers r

theorem Frame.setResult {t : Machine} (h : Frame w s t) {x : Fin 16}
    (hw : WritesRegister w s.carryIndex x) {r : UInt8 × Option Bool}
    (hf : r.2 ≠ none → WritesFlag w s.carryIndex) : Frame w s (t.setResult x r) := by
  unfold Machine.setResult
  split
  · exact h.setRegister hw _
  · next hsome =>
    have hflag : WritesRegister w s.carryIndex flagRegister :=
      .inr (.inl ⟨rfl, hf (by simp [hsome])⟩)
    exact (h.setRegister hw _).setRegister hflag _

theorem digit_of_flag {op : Alu} {a b : UInt8} (h : (op.eval a b).2 ≠ none) :
    0x4 ≤ op.digit ∧ op.digit ≤ 0x7 := by
  cases op <;> simp_all [Alu.eval, Alu.digit]

theorem digit_le (op : Alu) : op.digit ≤ 0x7 := by
  cases op <;> decide

theorem frame_addIndex (hd : w / 0x1000 = 0xF) (hk : w % 0x100 = 0x1E) (x : Fin 16) :
    Frame w s (s.addIndex x) := by
  have hmoved (a : UInt16) : Frame w s { s with index := a } :=
    { Frame.refl w s with index := .inr (.inr ⟨hd, .inl hk⟩) }
  unfold Machine.addIndex
  split
  · next hc => exact (hmoved _).setRegister (.inr (.inl ⟨rfl, .inr (.inr ⟨hc, hd, hk⟩)⟩)) _
  · exact hmoved _

theorem frame_waitKey (hd : w / 0x1000 = 0xF) (hk : w % 0x100 = 0x0A) {x : Fin 16}
    (hx : x.val = w / 0x100 % 0x10) : Frame w s (s.waitKey x) := by
  unfold Machine.waitKey
  split
  · exact (Frame.refl w s).setRegister (.inl ⟨hx, by simp [WritesOperand, hd, hk]⟩) _
  · exact { Frame.refl w s with waiting := .inr ⟨hd, hk⟩ }

/-- A word that is not stopped changes what belongs to its family. -/
theorem frame_of_clear (h : w < 65536) (ho : s.obstacle? (.ofWord w) = none) :
    Frame w s (s.execute (.ofWord w)) := by
  have hs := Instruction.stands_ofWord h
  -- what an instruction leaves alone is taken from `base`, what it writes is said case by case
  have base := Frame.refl w s
  have hover := not_overruns_of_clear ho
  generalize Instruction.ofWord w = i at *
  cases i with
  | clear => exact { base with screen := .inr (.inl hs) }
  | ret =>
    have he : s.stack.isEmpty = false := by simpa [obstacle?] using ho
    rw [execute_ret he]
    exact { base with
      stack := .inr (.inr hs)
      pc := .inr (.inl (by simp [Branches, show w = 0x00EE from hs])) }
  | jump a | jumpOffset a =>
    exact { base with pc := .inr (.inl (by simp [Branches, hs.1])) }
  | call a =>
    have hf : s.stack.isFull = false := by simpa [obstacle?] using ho
    rw [execute_call hf]
    exact { base with
      stack := .inr (.inl hs.1)
      pc := .inr (.inl (by simp [Branches, hs.1])) }
  | skipEqualByte | skipUnequalByte | skipEqual | skipUnequal =>
    exact frame_skipIf (by simp [Branches, hs.1]) _
  | skipDown | skipUp => exact frame_skipIf (by simp [Branches, hs.1, hs.2.1]) _
  | setByte | addByte => exact base.setRegister (.inl ⟨hs.2.1, by simp [WritesOperand, hs.1]⟩) _
  | alu op x y =>
    obtain ⟨hd, hdigit, hx, -⟩ := hs
    have hle := digit_le op
    refine base.setResult (.inl ⟨hx, by simp [WritesOperand, hd, hdigit, hle]⟩) fun hflag => ?_
    obtain ⟨hlo, hhi⟩ := digit_of_flag hflag
    exact .inl ⟨hd, .inl ⟨hdigit ▸ hlo, hdigit ▸ hhi⟩⟩
  | shiftRight x | shiftLeft x =>
    obtain ⟨hd, hdigit, hx⟩ := hs
    rw [execute]
    exact base.setResult (.inl ⟨hx, by simp [WritesOperand, hd, hdigit]⟩)
      fun _ => .inl ⟨hd, by simp [hdigit]⟩
  | setIndex => exact { base with index := .inr (.inl hs.1) }
  | glyph => exact { base with index := .inr (.inr ⟨hs.1, .inr hs.2.1⟩) }
  | addIndex x => exact frame_addIndex hs.1 hs.2.1 x
  | random x mask =>
    exact { base.setRegister (.inl ⟨hs.2.1, by simp [WritesOperand, hs.1]⟩) _ with
      random := .inr hs.1 }
  | draw x y n =>
    rw [execute, Machine.draw, if_pos ((not_overruns_draw ..).1 hover)]
    exact { base.setRegister (.inr (.inl ⟨rfl, .inr (.inl hs.1)⟩)) _ with
      screen := .inr (.inr hs.1) }
  | getDelay x => exact base.setRegister (.inl ⟨hs.2.2, by simp [WritesOperand, hs.1, hs.2.1]⟩) _
  | waitKey x => exact frame_waitKey hs.1 hs.2.1 hs.2.2
  | setDelay x => exact { base with delay := .inr ⟨hs.1, hs.2.1⟩ }
  | setSound x => exact { base with sound := .inr ⟨hs.1, hs.2.1⟩ }
  | storeDigits x =>
    rw [execute, storeDigits, if_pos ((not_overruns_storeDigits ..).1 hover)]
    exact { base with memory := .inr ⟨hs.1, .inl hs.2.1⟩ }
  | storeRegisters x =>
    rw [execute, storeRegisters, if_pos ((not_overruns_storeRegisters ..).1 hover)]
    exact { base with memory := .inr ⟨hs.1, .inr hs.2.1⟩ }
  | loadRegisters x =>
    rw [execute, loadRegisters, if_pos ((not_overruns_loadRegisters ..).1 hover)]
    refine { base with registers := fun r => ?_ }
    by_cases hr : r ≤ x
    · exact .inr (.inr (.inr ⟨hs.2.2 ▸ hr, hs.1, hs.2.1⟩))
    · exact .inl ((Vector.getElem_ofFn r.isLt).trans (if_neg hr))
  | unknown v => exact base

/-- An instruction changes nothing outside of the frame of its word, and a stopped one moves the
program counter back to the word. -/
theorem execute_frame (s : Machine) (w : UInt16) :
    Frame w.toNat s (s.execute (.ofWord w.toNat)) ∧
      (Stops w.toNat s → (s.execute (.ofWord w.toNat)).pc = s.pc - 2) := by
  have hiff : Stops w.toNat s ↔ _ := stops_iff w.toNat_lt
  cases ho : s.obstacle? (.ofWord w.toNat) with
  | none =>
    refine ⟨frame_of_clear w.toNat_lt ho, fun h => ?_⟩
    simp [hiff, ho] at h
  | some f =>
    rw [execute_of_obstacle ho]
    exact ⟨frame_haltBack (hiff.2 ⟨f, ho⟩) f, fun _ => rfl⟩

/-- A call on a full stack. -/
theorem execute_frame_fullStack :
    let s := { fresh (.ofSeed 0) false with stack := ⟨Vector.replicate 16 0x202, 16⟩, pc := 0x302 }
    Frame 0x2ABC s (s.execute (.ofWord 0x2ABC)) ∧ Stops 0x2ABC s ∧
      (s.execute (.ofWord 0x2ABC)).pc = 0x300 := by
  intro s
  have hstops : Stops 0x2ABC s := .inl ⟨by decide, by decide⟩
  obtain ⟨hframe, hpc⟩ := execute_frame s 0x2ABC
  exact ⟨hframe, hstops, (hpc hstops).trans (by decide)⟩

end Instructions

end Chip8.Machine
