/-
Registers saved in memory. `FX55` puts the registers up to `VX` behind the index register and `FX65`
takes them from there, so whatever is executed in between, and however long it takes, the registers
come back as they were, as long as no other store writes to the saved bytes. The other way round,
storing what has just been loaded changes nothing.
-/
import Chip8.Proofs.Machine.Footprint

namespace Chip8

namespace Machine

section Words

variable {w : Nat} {x : Fin 16}

theorem ofWord_storeRegisters_iff (h : w < 65536) :
    Instruction.ofWord w = .storeRegisters x ↔ w = 0xF055 + 0x100 * x := by
  rw [Instruction.ofWord_eq_iff h, Instruction.Stands]
  omega

theorem ofWord_loadRegisters_iff (h : w < 65536) :
    Instruction.ofWord w = .loadRegisters x ↔ w = 0xF065 + 0x100 * x := by
  rw [Instruction.ofWord_eq_iff h, Instruction.Stands]
  omega

end Words

/-! ## Saving and loading -/

section Instructions

variable {s : Machine} {x r : Fin 16}

theorem getElem?_take_registers (s : Machine) (h : r ≤ x) :
    (s.registers.toList.take (x + 1))[r.val]? = some (s.register r) := by
  have hr : r.val < x + 1 := Nat.lt_succ_of_le h
  rw [List.getElem?_take, if_pos hr, Vector.getElem?_toList, Vector.getElem?_eq_getElem r.isLt]
  rfl

theorem register_loadRegisters (hfit : s.index.toNat + x ≤ 4095) (r : Fin 16) :
    (s.execute (.loadRegisters x)).register r =
      if r ≤ x then s.memory.read (s.index.toNat + r) else s.register r := by
  rw [execute_loadRegisters (by omega), register]
  exact Vector.getElem_ofFn r.isLt

/-- Storing what has just been loaded changes nothing. -/
theorem storeRegisters_loadRegisters (hfit : s.index.toNat + x ≤ 4095) :
    ((s.execute (.loadRegisters x)).execute (.storeRegisters x)).memory = s.memory := by
  have hindex : (s.execute (.loadRegisters x)).index = s.index := by
    rw [execute_loadRegisters (by omega)]
  have hmemory : (s.execute (.loadRegisters x)).memory = s.memory := by
    rw [execute_loadRegisters (by omega)]
  rw [execute_storeRegisters (by rw [hindex]; omega), hindex, hmemory]
  ext a ha : 1
  rw [Memory.getElem_store]
  split
  · next hlo =>
    obtain ⟨r, rfl⟩ := Nat.exists_eq_add_of_le hlo
    rw [Nat.add_sub_cancel_left]
    by_cases hr : r ≤ x
    · -- the byte stored here is the one that was loaded from here
      have hlt : r < 16 := Nat.lt_of_le_of_lt hr x.isLt
      have hle : (⟨r, hlt⟩ : Fin 16) ≤ x := hr
      have hstored := getElem?_take_registers (s.execute (.loadRegisters x)) hle
      rw [hstored, Option.getD_some, register_loadRegisters hfit, if_pos hle]
      exact Memory.read_of_lt _ ha
    · rw [List.getElem?_eq_none (Nat.le_trans (List.length_take_le ..) (by omega)),
        Option.getD_none]
  · rfl

end Instructions

section Ticks

variable {s : Machine} {x r : Fin 16} (keys : Keypad)

/-- After `FX55` the registers up to `VX` are in memory. -/
theorem read_tick_of_storeRegisters (h : s.Executes (0xF055 + 0x100 * x))
    (hfit : s.index.toNat + x ≤ 4095) (hr : r ≤ x) :
    (s.tick keys).memory.read (s.index.toNat + r) = s.register r := by
  obtain ⟨w, hw, hval⟩ := h.next
  have hlt : s.index.toNat + r < 4096 := by
    have hr' : r.val ≤ x.val := hr
    omega
  have hexec : (s.sample keys).fetch.1.execute (.storeRegisters x) = _ :=
    execute_storeRegisters (show s.index.toNat + (x + 1) ≤ 4096 by omega)
  rw [tick_of_word keys hw, (ofWord_storeRegisters_iff w.toNat_lt).2 hval,
    countDownIfRunning_memory, hexec]
  refine (Memory.read_store _ hlt _).trans ?_
  rw [getElem?_take_registers _ hr]
  rfl

/-- `FX65` takes the registers up to `VX` from memory and changes nothing else of these two. -/
theorem tick_of_loadRegisters (h : s.Executes (0xF065 + 0x100 * x))
    (hfit : s.index.toNat + x ≤ 4095) :
    (∀ r, (s.tick keys).register r =
      if r ≤ x then s.memory.read (s.index.toNat + r) else s.register r) ∧
      (s.tick keys).memory = s.memory := by
  obtain ⟨w, hw, hval⟩ := h.next
  rw [tick_of_word keys hw, (ofWord_loadRegisters_iff w.toNat_lt).2 hval]
  constructor
  · intro r
    rw [countDownIfRunning_register]
    exact register_loadRegisters (s := (s.sample keys).fetch.1) hfit r
  · have hexec : (s.sample keys).fetch.1.execute (.loadRegisters x) = _ :=
      execute_loadRegisters (show s.index.toNat + (x + 1) ≤ 4096 by omega)
    rw [countDownIfRunning_memory, hexec]
    rfl

end Ticks

/-! ## Round trips -/

/-- The machine saves its registers up to `VX`, goes on for some ticks that write to none of the
saved bytes, and comes to load them. -/
structure SavesAndLoads (s : Machine) (x : Fin 16) (save : Keypad) (between : List Keypad) : Prop where
  saves : s.Executes (0xF055 + 0x100 * x)
  fits : s.index.toNat + x ≤ 4095
  unwritten : ∀ n < between.length, ∀ a, s.index.toNat ≤ a → a ≤ s.index.toNat + x →
    ¬ (s.run (save :: between.take n)).WritesByte a
  loads : (s.run (save :: between)).Executes (0xF065 + 0x100 * x)
  index_eq : (s.run (save :: between)).index = s.index

/-- The saved bytes are there until they are loaded. -/
theorem SavesAndLoads.read_run {s : Machine} {x : Fin 16} {save : Keypad} {between : List Keypad}
    (h : s.SavesAndLoads x save between) {r : Fin 16} (hr : r ≤ x) :
    (s.run (save :: between)).memory.read (s.index.toNat + r) = s.register r := by
  have hfit := h.fits
  have hr' : r.val ≤ x.val := hr
  have hlt : s.index.toNat + r < 4096 := by omega
  have hrun := getElem_run_of_not_writes (s := s.tick save) hlt fun n hn =>
    h.unwritten n hn _ (Nat.le_add_right _ _) (Nat.add_le_add_left hr' _)
  rw [← read_tick_of_storeRegisters save h.saves h.fits hr, run_cons, Memory.read_of_lt _ hlt,
    Memory.read_of_lt _ hlt, hrun]

/-- Saved registers come back, whatever is executed in between: after the load the registers up to
`VX` are as they were before the save, and the load changes neither the other registers nor memory.
A run that halts on the way comes to no load. The other way round, `FX65` and then `FX55` leave
memory as it was. -/
theorem saved_registers_survive (x : Fin 16) :
    (∀ (s : Machine) (save : Keypad) (between : List Keypad), s.SavesAndLoads x save between →
      let t := s.run (save :: between)
      ∀ load, (∀ r ≤ x, (t.tick load).register r = s.register r) ∧
        (∀ r, x < r → (t.tick load).register r = t.register r) ∧
        (t.tick load).memory = t.memory) ∧
    ∀ s : Machine, s.index.toNat + x ≤ 4095 →
      ((s.execute (.ofWord (0xF065 + 0x100 * x))).execute
        (.ofWord (0xF055 + 0x100 * x))).memory = s.memory := by
  constructor
  · intro s save between h t load
    have hindex : t.index = s.index := h.index_eq
    obtain ⟨hregister, hmemory⟩ := tick_of_loadRegisters load h.loads (hindex ▸ h.fits)
    refine ⟨fun r hr => ?_, fun r hr => ?_, hmemory⟩
    · rw [hregister, if_pos hr, hindex]
      exact h.read_run hr
    · rw [hregister, if_neg (Fin.not_le.2 hr)]
  · intro s hfit
    have hload : Instruction.ofWord (0xF065 + 0x100 * x) = .loadRegisters x :=
      (ofWord_loadRegisters_iff (w := 0xF065 + 0x100 * x) (by omega)).2 rfl
    have hstore : Instruction.ofWord (0xF055 + 0x100 * x) = .storeRegisters x :=
      (ofWord_storeRegisters_iff (w := 0xF055 + 0x100 * x) (by omega)).2 rfl
    rw [hload, hstore]
    exact storeRegisters_loadRegisters hfit

/-- Two saved registers, one of which is overwritten while others are stored right above and right
below them. -/
theorem saved_registers_survive_neighbours :
    let s := ((fresh (.ofSeed 0) false).withProgram [0x60, 0x05, 0x61, 0x06, 0xA3, 0x00,
      0xF1, 0x55, 0x60, 0x07, 0xA3, 0x02, 0xF1, 0x55, 0xA2, 0xFE, 0xF1, 0x55, 0xA3, 0x00,
      0xF1, 0x65]).run (List.replicate 3 Keypad.released)
    let t := s.run (Keypad.released :: List.replicate 6 Keypad.released)
    s.SavesAndLoads 1 Keypad.released (List.replicate 6 Keypad.released) ∧
      t.register 0 = 7 ∧ s.index.toNat + 1 ≤ 4095 ∧
      (∀ load, (t.tick load).register 0 = 5 ∧ (t.tick load).memory = t.memory) ∧
      ((s.execute (.ofWord 0xF165)).execute (.ofWord 0xF155)).memory = s.memory := by
  intro s t
  have hs : s.Executes (0xF055 + 0x100 * (1 : Fin 16)) ∧ s.index.toNat = 0x300 ∧
      (∀ n < 6, ∀ r ≤ 1,
        ¬ (s.run (Keypad.released :: (List.replicate 6 Keypad.released).take n)).WritesByte
          (0x300 + r)) ∧
      t.Executes (0xF065 + 0x100 * (1 : Fin 16)) ∧ t.index = s.index ∧
      t.register 0 = 7 ∧ s.register 0 = 5 := by
    decide +kernel
  obtain ⟨hsaves, hi, hunwritten, hloads, hindex, hseven, hfive⟩ := hs
  have hfit : s.index.toNat + 1 ≤ 4095 := by omega
  have h : s.SavesAndLoads 1 Keypad.released (List.replicate 6 Keypad.released) := by
    refine ⟨hsaves, hfit, fun n hn a hlo hhi => ?_, hloads, hindex⟩
    rw [hi] at hlo hhi
    obtain ⟨r, rfl⟩ := Nat.exists_eq_add_of_le hlo
    exact hunwritten n hn r (Nat.le_of_add_le_add_left hhi)
  obtain ⟨hback, hsame⟩ := saved_registers_survive 1
  refine ⟨h, hseven, hfit, fun load => ?_, hsame s hfit⟩
  obtain ⟨hregister, -, hmemory⟩ := hback s Keypad.released _ h load
  exact ⟨(hregister 0 (by decide)).trans hfive, hmemory⟩

end Machine

end Chip8
