/-
The three instructions that carry bytes between registers and memory: `FX55` stores the registers up
to `VX` behind the index register, `FX65` loads them from there, and `FX33` stores the decimal digits
of `VX`. Each of them does so up to the last byte of memory and touches nothing else; if a byte is
missing, it does nothing but halt the machine. The registers behind `VX` have bytes of their own in
a transfer of all sixteen lanes, some of them past the end of memory; they do not show.
-/
import Chip8.Proofs.Machine.Saved

namespace Chip8

namespace Memory

/-- `m'` holds the bytes from `start` on, and at any other address what `m` holds. -/
structure Overwritten (m : Memory) (start : Nat) (bytes : List UInt8) (m' : Memory) : Prop where
  inside : ∀ (k : Nat) (hk : k < bytes.length), m'.read (start + k) = bytes[k]
  outside : ∀ (a : Nat) (ha : a < 4096), a < start ∨ start + bytes.length ≤ a → m'[a] = m[a]

theorem overwritten_store (m : Memory) {start : Nat} {bytes : List UInt8}
    (h : Fits start bytes.length) : m.Overwritten start bytes (m.store start bytes) where
  inside k hk := by
    have hlt : start + k < 4096 := by omega
    rw [read_store m hlt, List.getElem?_eq_getElem hk, Option.getD_some]
  outside a ha hout := by
    rw [getElem_store]
    split
    · rw [List.getElem?_eq_none (by omega), Option.getD_none]
    · rfl

end Memory

/-! ## Decimal digits -/

/-- The digits of a number below a thousand, the hundreds first. -/
structure InDecimal (n : Nat) (h t u : UInt8) : Prop where
  hundreds_le : h.toNat ≤ 9
  tens_le : t.toNat ≤ 9
  units_le : u.toNat ≤ 9
  sum : 100 * h.toNat + 10 * t.toNat + u.toNat = n

theorem inDecimal_byte (v : UInt8) : InDecimal v.toNat (v / 100) (v / 10 % 10) (v % 10) := by
  have hv := v.toNat_lt
  have h10 : (10 : UInt8).toNat = 10 := rfl
  have h100 : (100 : UInt8).toNat = 100 := rfl
  constructor <;> simp only [UInt8.toNat_div, UInt8.toNat_mod, h10, h100] <;> omega

namespace Machine

/-! ## The three transfers -/

/-- `t` is `s` with its registers up to `VX` in memory. -/
structure Stores (s : Machine) (x : Fin 16) (t : Machine) : Prop where
  rest : t = { s with memory := t.memory }
  stored : ∀ r ≤ x, t.memory.read (s.index.toNat + r) = s.register r
  kept : ∀ (a : Nat) (ha : a < 4096), a < s.index.toNat ∨ s.index.toNat + x < a →
    t.memory[a] = s.memory[a]

/-- `t` is `s` with its registers up to `VX` taken from memory. -/
structure Loads (s : Machine) (x : Fin 16) (t : Machine) : Prop where
  rest : t = { s with registers := t.registers }
  loaded : ∀ r ≤ x, t.register r = s.memory.read (s.index.toNat + r)
  kept : ∀ r, x < r → t.register r = s.register r

/-- `t` is `s` with the decimal digits of `VX` in memory. -/
structure Converts (s : Machine) (x : Fin 16) (t : Machine) : Prop where
  rest : t = { s with memory := t.memory }
  digits : InDecimal (s.register x).toNat (t.memory.read s.index.toNat)
    (t.memory.read (s.index.toNat + 1)) (t.memory.read (s.index.toNat + 2))
  kept : ∀ (a : Nat) (ha : a < 4096), a < s.index.toNat ∨ s.index.toNat + 2 < a →
    t.memory[a] = s.memory[a]

section Transfers

variable {s : Machine} {x : Fin 16}

theorem ofWord_storeDigits_iff {w : Nat} (h : w < 65536) :
    Instruction.ofWord w = .storeDigits x ↔ w = 0xF033 + 0x100 * x := by
  rw [Instruction.ofWord_eq_iff h, Instruction.Stands]
  omega

theorem stores_execute (h : s.index.toNat + x ≤ 4095) :
    s.Stores x (s.execute (.storeRegisters x)) := by
  have hlen : (s.registers.toList.take (x + 1)).length = x + 1 := by
    rw [List.length_take, Vector.length_toList]
    omega
  have hw : s.memory.Overwritten s.index.toNat (s.registers.toList.take (x + 1)) _ :=
    Memory.overwritten_store s.memory (by omega)
  rw [execute_storeRegisters (by omega)]
  refine ⟨rfl, fun r hr => ?_, fun a ha hout => hw.outside a ha (by omega)⟩
  have hr' : r.val ≤ x.val := hr
  have hbyte := getElem?_take_registers s hr
  rw [List.getElem?_eq_getElem (by omega)] at hbyte
  exact (hw.inside r (by omega)).trans (Option.some.inj hbyte)

theorem loads_execute (h : s.index.toNat + x ≤ 4095) :
    s.Loads x (s.execute (.loadRegisters x)) where
  rest := by rw [execute_loadRegisters (by omega)]
  loaded r hr := by rw [register_loadRegisters h, if_pos hr]
  kept r hr := by rw [register_loadRegisters h, if_neg (Fin.not_le.2 hr)]

theorem converts_execute (h : s.index.toNat + 2 ≤ 4095) :
    s.Converts x (s.execute (.storeDigits x)) := by
  have hw : s.memory.Overwritten s.index.toNat (decimalDigits (s.register x)) _ :=
    Memory.overwritten_store s.memory (show s.index.toNat + 3 ≤ 4096 by omega)
  have h0 := hw.inside 0 (show 0 < 3 by decide)
  have h1 := hw.inside 1 (show 1 < 3 by decide)
  have h2 := hw.inside 2 (show 2 < 3 by decide)
  rw [execute_storeDigits (by omega)]
  refine ⟨rfl, ?_, fun a ha hout => hw.outside a ha (show _ ∨ s.index.toNat + 3 ≤ a by omega)⟩
  rw [Nat.add_zero] at h0
  rw [h0, h1, h2]
  exact inDecimal_byte (s.register x)

/-- A transfer that would leave memory is stopped. -/
theorem execute_of_leaves {i : Instruction} (h : 4096 < s.index.toNat + i.span) (hpos : 0 < i.span) :
    s.execute i = { s with pc := s.pc - 2, fault := 3 } :=
  execute_of_obstacle (obstacle?_of_overruns ⟨hpos, Nat.not_le.2 h⟩)

/-- `FX55`, `FX65` and `FX33` move their bytes if all of them lie in memory, the last one included,
and nothing else; if one does not, they only halt the machine at their own address. So do transfers
of sixteen lanes, whatever is read past the end of memory and thrown away there. -/
theorem transfers_exact (s : Machine) (x : Fin 16) :
    let store := s.execute (.ofWord (0xF055 + 0x100 * x))
    let load := s.execute (.ofWord (0xF065 + 0x100 * x))
    let convert := s.execute (.ofWord (0xF033 + 0x100 * x))
    let stopped := { s with pc := s.pc - 2, fault := 3 }
    (s.index.toNat + x ≤ 4095 → s.Stores x store ∧ s.Loads x load) ∧
    (s.index.toNat + 2 ≤ 4095 → s.Converts x convert) ∧
    (4095 < s.index.toNat + x → store = stopped ∧ load = stopped) ∧
    (4095 < s.index.toNat + 2 → convert = stopped) ∧
    ∀ b, (Loose.storeRegisters b s x).machine = store ∧ (Loose.loadRegisters b s x).machine = load ∧
      (Loose.storeDigits b s x).machine = convert := by
  intro store load convert stopped
  have hstore : Instruction.ofWord (0xF055 + 0x100 * x) = .storeRegisters x :=
    (ofWord_storeRegisters_iff (w := 0xF055 + 0x100 * x) (by omega)).2 rfl
  have hload : Instruction.ofWord (0xF065 + 0x100 * x) = .loadRegisters x :=
    (ofWord_loadRegisters_iff (w := 0xF065 + 0x100 * x) (by omega)).2 rfl
  have hconvert : Instruction.ofWord (0xF033 + 0x100 * x) = .storeDigits x :=
    (ofWord_storeDigits_iff (w := 0xF033 + 0x100 * x) (by omega)).2 rfl
  simp only [store, load, convert, hstore, hload, hconvert]
  refine ⟨fun h => ⟨stores_execute h, loads_execute h⟩, converts_execute, fun h => ?_, fun h => ?_,
    fun b => ⟨Loose.storeRegisters_eq b s x, Loose.loadRegisters_eq b s x,
      Loose.storeDigits_eq b s x⟩⟩
  · exact ⟨execute_of_leaves (show 4096 < s.index.toNat + (x + 1) by omega) (Nat.succ_pos _),
      execute_of_leaves (show 4096 < s.index.toNat + (x + 1) by omega) (Nat.succ_pos _)⟩
  · exact execute_of_leaves (show 4096 < s.index.toNat + 3 by omega) (Nat.succ_pos 2)

/-- The last three bytes of memory: the digits of 255 stored in them, three registers loaded from
them, and four registers, for which they are one too few. -/
theorem transfers_exact_lastByte :
    let s := { fresh (.ofSeed 0) false with
      memory := Memory.fresh.store 0xFFD [7, 8, 9]
      registers := Vector.replicate 16 0xFF
      index := 0xFFD }
    let t := s.execute (.ofWord 0xF233)
    let u := s.execute (.ofWord 0xF265)
    t.memory.read 0xFFF = 5 ∧ t.memory[0xFFC] = s.memory[0xFFC] ∧ u.register 2 = 9 ∧
      u.register 3 = 0xFF ∧ s.execute (.ofWord 0xF355) = { s with pc := s.pc - 2, fault := 3 } := by
  intro s t u
  have hregister (r : Fin 16) : s.register r = 0xFF := Vector.getElem_replicate r.isLt
  have hindex : s.index.toNat = 0xFFD := rfl
  have hlast : s.memory.read (0xFFD + 2) = 9 := Memory.read_store Memory.fresh (by decide) [7, 8, 9]
  clear_value s
  obtain ⟨htransfer, hconvert, -⟩ := transfers_exact s 2
  obtain ⟨-, -, hstop, -⟩ := transfers_exact s 3
  have hc : s.Converts 2 t := hconvert (by omega)
  have hl : s.Loads 2 u := (htransfer (show s.index.toNat + 2 ≤ 4095 by omega)).2
  have hfive : (t.memory.read (0xFFD + 2)).toNat = 5 := by
    obtain ⟨-, htens, hunits, hsum⟩ := hc.digits
    have h255 : (s.register 2).toNat = 255 := congrArg UInt8.toNat (hregister 2)
    rw [h255, hindex] at hsum
    rw [hindex] at htens hunits
    omega
  refine ⟨UInt8.toNat_inj.1 hfive, hc.kept 0xFFC (by decide) (.inl (by omega)), ?_,
    (hl.kept 3 (by decide)).trans (hregister 3),
    (hstop (show 4095 < s.index.toNat + 3 by omega)).1⟩
  rw [hl.loaded 2 (Nat.le_refl 2), hindex]
  exact hlast

end Transfers

end Machine

end Chip8
