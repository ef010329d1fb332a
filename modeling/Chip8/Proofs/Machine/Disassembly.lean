/-
What the text of a word says about running it. The text determines the instruction, so words with
the same text do the same to every machine; the only digits that it leaves out are ones that no
instruction looks at. And a word is shown as data exactly if it is undefined: of such a word a tick
gives one notice, passes over it and does nothing else, and of no other word it gives any.
-/
import Chip8.Proofs.Assembler
import Chip8.Proofs.Machine.Effect
import Chip8.Session

namespace Chip8

/-! ## Words with the same text -/

namespace Instruction

/-- The words differ at most in a digit that their instruction has no operand for: the third of a
shift, the last of a comparison of two registers. -/
def DifferInOmitted (v w : Nat) : Prop :=
  v / 0x1000 = 0x8 ∧ (v % 0x10 = 0x6 ∨ v % 0x10 = 0xE) ∧ w / 0x100 = v / 0x100 ∧
    w % 0x10 = v % 0x10 ∨
  (v / 0x1000 = 0x5 ∨ v / 0x1000 = 0x9) ∧ w / 0x10 = v / 0x10

variable {v w : Nat} {i : Instruction}

theorem eq_of_address (hd : v / 0x1000 = w / 0x1000) (ha : v % 0x1000 = w % 0x1000) : v = w := by
  omega

theorem eq_of_byte (hd : v / 0x1000 = w / 0x1000) (hx : v / 0x100 % 0x10 = w / 0x100 % 0x10)
    (hk : v % 0x100 = w % 0x100) : v = w := by
  omega

theorem eq_of_digits (hd : v / 0x1000 = w / 0x1000) (hx : v / 0x100 % 0x10 = w / 0x100 % 0x10)
    (hy : v / 0x10 % 0x10 = w / 0x10 % 0x10) (hn : v % 0x10 = w % 0x10) : v = w := by
  omega

/-- An instruction whose words have an operand in every digit stands for one word. -/
theorem Stands.eq_or_differInOmitted (hv : Stands v i) (hw : Stands w i) :
    v = w ∨ DifferInOmitted v w := by
  cases i with
  | clear | ret => exact .inl (Eq.trans hv hw.symm)
  | unknown u => exact .inl (Int.ofNat.inj (hv.1.symm.trans hw.1))
  | jump a | call a | setIndex a | jumpOffset a =>
    exact .inl (eq_of_address (hv.1.trans hw.1.symm) (hv.2.symm.trans hw.2))
  | skipEqualByte x k | skipUnequalByte x k | setByte x k | addByte x k | random x k =>
    obtain ⟨hd, hx, hk⟩ := hv
    exact .inl (eq_of_byte (hd.trans hw.1.symm) (hx.symm.trans hw.2.1) (hk.symm.trans hw.2.2))
  | alu op x y =>
    obtain ⟨hd, hn, hx, hy⟩ := hv
    exact .inl (eq_of_digits (hd.trans hw.1.symm) (hx.symm.trans hw.2.2.1) (hy.symm.trans hw.2.2.2)
      (hn.trans hw.2.1.symm))
  | draw x y n =>
    obtain ⟨hd, hx, hy, hn⟩ := hv
    exact .inl (eq_of_digits (hd.trans hw.1.symm) (hx.symm.trans hw.2.1) (hy.symm.trans hw.2.2.1)
      (hn.symm.trans hw.2.2.2))
  | shiftRight x =>
    obtain ⟨hd, hn, hx⟩ := hv
    obtain ⟨hd', hn', hx'⟩ := hw
    exact .inr (.inl ⟨hd, .inl hn, by omega, hn'.trans hn.symm⟩)
  | shiftLeft x =>
    obtain ⟨hd, hn, hx⟩ := hv
    obtain ⟨hd', hn', hx'⟩ := hw
    exact .inr (.inl ⟨hd, .inr hn, by omega, hn'.trans hn.symm⟩)
  | skipEqual x y =>
    obtain ⟨hd, hx, hy⟩ := hv
    obtain ⟨hd', hx', hy'⟩ := hw
    exact .inr (.inr ⟨.inl hd, by omega⟩)
  | skipUnequal x y =>
    obtain ⟨hd, hx, hy⟩ := hv
    obtain ⟨hd', hx', hy'⟩ := hw
    exact .inr (.inr ⟨.inr hd, by omega⟩)
  | _ x =>
    obtain ⟨hd, hk, hx⟩ := hv
    exact .inl (eq_of_byte (hd.trans hw.1.symm) (hx.symm.trans hw.2.2) (hk.trans hw.2.1.symm))

theorem Stands.of_differInOmitted (hs : Stands v i) (h : DifferInOmitted v w) : Stands w i := by
  have hfamily : v / 0x1000 = 0x8 ∨ v / 0x1000 = 0x5 ∨ v / 0x1000 = 0x9 := by
    rcases h with ⟨hd, -⟩ | ⟨hd, -⟩
    · exact .inl hd
    · exact .inr hd
  cases i with
  | clear | ret =>
    cases hs
    simp at hfamily
  | alu op x y =>
    obtain ⟨hd, hn, -⟩ := hs
    rcases h with ⟨-, hlast, -⟩ | ⟨hd', -⟩
    · rw [hn] at hlast
      cases op <;> simp [Alu.digit] at hlast
    · omega
  | shiftRight x | shiftLeft x =>
    obtain ⟨hd, hn, hx⟩ := hs
    rcases h with ⟨-, -, hhigh, hlow⟩ | ⟨hd', -⟩
    · exact ⟨by omega, hlow.trans hn, by omega⟩
    · omega
  | skipEqual x y | skipUnequal x y =>
    obtain ⟨hd, hx, hy⟩ := hs
    rcases h with ⟨hd', -⟩ | ⟨-, hhigh⟩
    · omega
    · exact ⟨by omega, by omega, by omega⟩
  | unknown u =>
    rcases hs.2 with ⟨hd, -⟩ | ⟨hd, hn⟩ | ⟨hd, -⟩ | ⟨hd, -⟩
    case inr.inl =>
      -- the undefined words of this family are told by the last digit, which is kept
      rcases h with ⟨-, hlast, -⟩ | ⟨hd', -⟩ <;> omega
    all_goals omega
  | _ => exact absurd hs.1 (by omega)

theorem ofWord_eq_ofWord_iff (hv : v < 65536) (hw : w < 65536) :
    ofWord v = ofWord w ↔ v = w ∨ DifferInOmitted v w := by
  constructor
  · intro h
    exact (stands_ofWord hv).eq_or_differInOmitted ((ofWord_eq_iff hw).1 h.symm)
  · rintro (rfl | h)
    · rfl
    · exact ((ofWord_eq_iff hw).2 ((stands_ofWord hv).of_differInOmitted h)).symm

end Instruction

theorem disassemble_eq_disassemble_iff {v w : UInt16} :
    disassemble v.toNat = disassemble w.toNat ↔
      Instruction.ofWord v.toNat = Instruction.ofWord w.toNat := by
  constructor
  · intro h
    have hread := congrArg Assembler.read h
    rw [Assembler.read_disassemble, Assembler.read_disassemble] at hread
    exact Option.some.inj hread
  · intro h
    rw [Assembler.disassemble_eq, Assembler.disassemble_eq, h]

/-- The words do the same to every machine and give the same notices. -/
def Alike (v w : UInt16) : Prop :=
  ∀ s : Machine, s.execute (.ofWord v.toNat) = s.execute (.ofWord w.toNat) ∧
    s.noticeOf? (.ofWord v.toNat) = s.noticeOf? (.ofWord w.toNat)

theorem alike_of_ofWord_eq {v w : UInt16}
    (h : Instruction.ofWord v.toNat = Instruction.ofWord w.toNat) : Alike v w := by
  intro s
  rw [h]
  exact ⟨rfl, rfl⟩

/-- Words with the same text do the same; they are equal or differ in a digit that the text leaves
out, and words that differ in such a digit have the same text and do the same. -/
theorem alike_of_same_text (v w : UInt16) :
    (disassemble v.toNat = disassemble w.toNat → Alike v w) ∧
      (disassemble v.toNat = disassemble w.toNat ↔
        v = w ∨ Instruction.DifferInOmitted v.toNat w.toNat) ∧
      (Instruction.DifferInOmitted v.toNat w.toNat → Alike v w) := by
  have hiff := Instruction.ofWord_eq_ofWord_iff v.toNat_lt w.toNat_lt
  rw [disassemble_eq_disassemble_iff, hiff, UInt16.toNat_inj]
  refine ⟨fun h => ?_, Iff.rfl, fun h => ?_⟩
  · exact alike_of_ofWord_eq (hiff.2 (h.imp_left (congrArg UInt16.toNat)))
  · exact alike_of_ofWord_eq (hiff.2 (.inr h))

/-- `SHR V1` does not look at `V2` or `V3`. -/
theorem alike_of_same_text_shift :
    disassemble (0x8126 : UInt16).toNat = disassemble (0x8136 : UInt16).toNat ∧
      Alike 0x8126 0x8136 := by
  have h : disassemble (0x8126 : UInt16).toNat = disassemble (0x8136 : UInt16).toNat := by
    decide +kernel
  exact ⟨h, (alike_of_same_text 0x8126 0x8136).1 h⟩

/-! ## Data -/

/-- The text shows a word of four digits as data. -/
def IsData (text : String) : Prop :=
  ∃ ds : List Char, text.toList = "DW 0x".toList ++ ds ∧ ds.length = 4 ∧ ∀ c ∈ ds, c ∈ Hex.alphabet

theorem IsData.eq_unknown {i : Instruction} (h : IsData i.mnemonic) : ∃ v, i = .unknown v := by
  obtain ⟨ds, htext, -⟩ := h
  cases i with
  | unknown v => exact ⟨v, rfl⟩
  | alu op x y => cases op <;> simp [Instruction.mnemonic, Mnemonic.alu] at htext
  | _ => simp [Instruction.mnemonic] at htext

theorem isData_mnemonic_unknown {w : Nat} (h : w < 65536) :
    IsData (Instruction.unknown w).mnemonic := by
  refine ⟨(Hex.padded 4 w).toList, by simp [Instruction.mnemonic], ?_, ?_⟩
  · exact Hex.length_padded (by decide) h
  · exact fun c hc => Hex.mem_alphabet_of_mem_padded hc

/-- Exactly the undefined words are shown as data. -/
theorem isData_disassemble_iff (w : UInt16) :
    IsData (disassemble w.toNat) ↔ Instruction.Undefined w.toNat := by
  rw [Assembler.disassemble_eq]
  constructor
  · intro hd
    obtain ⟨v, hv⟩ := hd.eq_unknown
    exact Instruction.undefined_of_ofWord w.toNat_lt hv
  · intro hu
    rw [Instruction.ofWord_of_undefined w.toNat_lt hu]
    exact isData_mnemonic_unknown w.toNat_lt

/-! ## Notices and lines -/

/-- The standard logger when it shows everything. -/
def Logger.debugging : Logger := { Logger.standard with threshold := .debug }

theorem Logger.line?_debugging (terminal : Bool) (e : LogEntry) :
    debugging.line? terminal e = some (debugging.line terminal e) :=
  if_pos (decide_eq_true (Nat.zero_le _))

namespace Machine

/-- The lines shown for the coming tick when debugging: its announcement and its notice. -/
def lines (s : Machine) (terminal : Bool) : List String :=
  (Session.tickLog true s).filterMap (Logger.debugging.line? terminal)

section Word

variable {s : Machine} {w : UInt16}

theorem lines_eq (s : Machine) (terminal : Bool) : s.lines terminal =
    Logger.debugging.line terminal ⟨.debug, s.trace⟩ ::
      s.notice?.toList.map fun n => Logger.debugging.line terminal ⟨.warning, n.message⟩ := by
  have hall : Logger.debugging.line? terminal = some ∘ Logger.debugging.line terminal :=
    funext (Logger.line?_debugging terminal)
  rw [lines, hall, List.filterMap_eq_map]
  simp [Session.tickLog]

theorem notice?_of_word (h : s.next = .word w) :
    s.notice? = s.fetch.1.noticeOf? (.ofWord w.toNat) := by
  rw [notice?, nextWord?_eq_some_iff.2 h]
  rfl

theorem notice?_of_undefined (h : s.next = .word w) (hu : Instruction.Undefined w.toNat) :
    s.notice? = some ⟨w.toNat, s.pc.toNat⟩ := by
  -- the address is that of the word, though the program counter is behind it by then
  have hpc : s.pc + 2 - 2 = s.pc := UInt16.add_sub_cancel ..
  rw [notice?_of_word h, Instruction.ofWord_of_undefined w.toNat_lt hu]
  simp [noticeOf?, fetch, hpc]

theorem notice?_of_defined (h : s.next = .word w) (hu : ¬ Instruction.Undefined w.toNat) :
    s.notice? = none := by
  rw [notice?_of_word h]
  cases hi : Instruction.ofWord w.toNat with
  | unknown v => exact absurd (Instruction.undefined_of_ofWord w.toNat_lt hi) hu
  | _ => rfl

theorem trace_of_word (h : s.next = .word w) :
    s.trace = traceText s.pc.toNat w.toNat (disassemble w.toNat) := by
  obtain ⟨-, ha, -, hw⟩ := next_eq_word_iff.1 h
  simp [trace, ha, fetch, hw]

/-- Nothing but the program counter moves, and the clock. -/
theorem tick_of_undefined (h : s.next = .word w) (hu : Instruction.Undefined w.toNat)
    (keys : Keypad) : s.tick keys =
      ({ s with pc := s.pc + 2, keypad := keys, redraw := false, beeping := false }).countDown := by
  have hf : ((s.sample keys).fetch.1).fault = 0 := (next_eq_word_iff.1 h).1
  rw [tick_of_word keys h, Instruction.ofWord_of_undefined w.toNat_lt hu, execute,
    countDownIfRunning, if_pos hf]
  rfl

end Word

/-- When a machine is about to execute a word, its announcement shows the address, that word and the
word's text. If the text is data, the tick gives one notice, of that word at that address, and
passes over it; else it gives none. -/
theorem announced_as_executed {s : Machine} (hf : s.fault = 0) (ha : s.awaiting = false)
    (hm : Memory.Fits s.pc.toNat 2) (keys : Keypad) (terminal : Bool) :
    ∃ w : UInt16, s.nextWord? = some w ∧
      s.tick keys = ((s.sample keys).fetch.1.execute (.ofWord w.toNat)).countDownIfRunning ∧
      s.trace = traceText s.pc.toNat w.toNat (disassemble w.toNat) ∧
      (IsData (disassemble w.toNat) →
        s.notice? = some ⟨w.toNat, s.pc.toNat⟩ ∧
        s.lines terminal =
          [Logger.debugging.line terminal ⟨.debug, s.trace⟩,
            Logger.debugging.line terminal
              ⟨.warning, (Notice.mk w.toNat s.pc.toNat).message⟩] ∧
        s.tick keys =
          ({ s with pc := s.pc + 2, keypad := keys, redraw := false,
                    beeping := false }).countDown) ∧
      (¬ IsData (disassemble w.toNat) →
        s.notice? = none ∧
        s.lines terminal = [Logger.debugging.line terminal ⟨.debug, s.trace⟩]) := by
  have hn : s.next = .word (s.memory.word s.pc) := next_eq_word_iff.2 ⟨hf, ha, hm, rfl⟩
  refine ⟨s.memory.word s.pc, nextWord?_eq_some_iff.2 hn, tick_of_word keys hn, trace_of_word hn,
    fun hd => ?_, fun hd => ?_⟩
  · have hu := (isData_disassemble_iff _).1 hd
    have hnotice := notice?_of_undefined hn hu
    refine ⟨hnotice, ?_, tick_of_undefined hn hu keys⟩
    rw [lines_eq, hnotice]
    rfl
  · have hu := mt (isData_disassemble_iff _).2 hd
    have hnotice := notice?_of_defined hn hu
    refine ⟨hnotice, ?_⟩
    rw [lines_eq, hnotice]
    rfl

/-- A program of one undefined word. -/
theorem announced_as_executed_data :
    let s := (fresh (.ofSeed 0) false).withProgram [0x01, 0x23]
    s.fault = 0 ∧ s.awaiting = false ∧ Memory.Fits s.pc.toNat 2 ∧
      s.notice? = some ⟨0x0123, 0x200⟩ ∧
      s.lines false = ["[chipjax] DEBUG    0x200  0123  DW 0x0123",
        "[chipjax] WARNING  Unknown opcode 0x0123 at 0x200"] := by
  intro s
  have hs : s.fault = 0 ∧ s.awaiting = false ∧ Memory.Fits s.pc.toNat 2 := by decide +kernel
  obtain ⟨hf, ha, hm⟩ := hs
  obtain ⟨w, hw, -, -, hdata, -⟩ := announced_as_executed hf ha hm Keypad.released false
  have hw' : s.nextWord? = some 0x0123 := by decide +kernel
  obtain rfl : w = 0x0123 := Option.some.inj (hw.symm.trans hw')
  have hd : IsData (disassemble (0x0123 : UInt16).toNat) :=
    (isData_disassemble_iff _).2 (.inl (by decide))
  obtain ⟨hnotice, hlines, -⟩ := hdata hd
  refine ⟨hf, ha, hm, hnotice, ?_⟩
  rw [hlines]
  decide +kernel

end Machine

end Chip8
