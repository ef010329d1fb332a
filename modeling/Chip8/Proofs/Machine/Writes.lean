/-
The writes of a tick. Every instruction writes in range, with one exception: `LD [I], Vx` writes all
sixteen lanes, and those behind its last register may lie past the end of memory, where they are
dropped. Pushes and pops are in range because `CALL` and `RET` look at the stack first, and the end
of a wait for a key because a register number is at most 15.
-/
import Chip8.Proofs.Machine.Loose

namespace Chip8

namespace Loose

/-! ## Instructions -/

/-- A lane of `LD [I], Vx` behind its last register. -/
def Spills (s : Machine) (i : Instruction) (a : Write) : Prop :=
  ∃ (x : Fin 16) (lane : Nat), i = .storeRegisters x ∧ x.val < lane ∧ lane < 16 ∧
    a = .byte (s.index.toNat + lane)

section Writes

variable (b : Beyond) {s : Machine} {a : Write}

theorem writes_scatter (o : Outcome) (a : Nat) (vs : List UInt8) :
    (o.scatter a vs).writes = o.writes ++ (List.range' a vs.length).map .byte := by
  induction vs generalizing o a with
  | nil => exact (List.append_nil _).symm
  | cons v vs ih =>
    rw [Outcome.scatter, ih, Outcome.setByte, List.append_assoc]
    rfl

theorem mem_writes_scatter {start : Nat} {vs : List UInt8} {t : Machine}
    (h : a ∈ ((Loose.start t).scatter start vs).writes) :
    ∃ lane < vs.length, a = .byte (start + lane) := by
  rw [writes_scatter, Loose.start, List.nil_append] at h
  obtain ⟨i, hi, rfl⟩ := List.mem_map.1 h
  obtain ⟨hle, hlt⟩ := List.mem_range'_1.1 hi
  exact ⟨i - start, by omega, by rw [Nat.add_sub_cancel' hle]⟩

theorem inRange_register {x : Nat} (hx : x < 16) (h : a ∈ [Write.register x]) : a.InRange := by
  obtain rfl := List.mem_singleton.1 h
  exact hx

theorem inRange_cell {i : Nat} (hi : i < 16) (h : a ∈ [Write.cell i]) : a.InRange := by
  obtain rfl := List.mem_singleton.1 h
  exact hi

theorem inRange_of_mem_ret (hp : s.stack.pointer.toNat ≤ 16) (h : a ∈ (ret b s).writes) :
    a.InRange := by
  unfold ret at h
  split at h
  · cases h
  · next he => exact inRange_cell (popped_lt (by simpa using he) hp) h

theorem inRange_of_mem_call {target : Fin 4096} (h : a ∈ (call s target).writes) : a.InRange := by
  unfold call at h
  split at h
  · cases h
  · next hf => exact inRange_cell (CallStack.isFull_eq_false.1 (by simpa using hf)) h

theorem inRange_of_mem_draw {x y : Nat} {height : Fin 16} (h : a ∈ (draw b s x y height).writes) :
    a.InRange := by
  unfold draw at h
  split at h
  · exact inRange_register (by decide) h
  · cases h

theorem inRange_of_mem_storeDigits {x : Nat} (h : a ∈ (storeDigits b s x).writes) : a.InRange := by
  unfold storeDigits at h
  split at h
  · next hm =>
    obtain ⟨lane, hlane, rfl⟩ := mem_writes_scatter h
    have h3 : lane < 3 := hlane
    show s.index.toNat + lane < 4096
    omega
  · cases h

theorem inRange_or_spills_of_mem_storeRegisters {x : Fin 16}
    (h : a ∈ (storeRegisters b s x).writes) : a.InRange ∨ Spills s (.storeRegisters x) a := by
  unfold storeRegisters at h
  split at h
  · next hm =>
    obtain ⟨lane, hlane, rfl⟩ := mem_writes_scatter h
    rw [Vector.length_toList] at hlane
    by_cases hx : lane ≤ x.val
    · left
      show s.index.toNat + lane < 4096
      omega
    · exact .inr ⟨x, lane, rfl, by omega, hlane, rfl⟩
  · cases h

theorem inRange_of_mem_loadRegisters {x : Fin 16} (h : a ∈ (loadRegisters b s x).writes) :
    a.InRange := by
  unfold loadRegisters at h
  split at h <;> cases h

theorem inRange_of_mem_addIndex {x : Nat} (h : a ∈ (addIndex b s x).writes) : a.InRange := by
  unfold addIndex at h
  dsimp only at h
  split at h
  · exact inRange_register (by decide) h
  · cases h

theorem inRange_of_mem_waitKey {x : Fin 16} (h : a ∈ (waitKey s x).writes) : a.InRange := by
  unfold waitKey at h
  split at h
  · exact inRange_register x.isLt h
  · cases h

theorem inRange_of_mem_resume (hk : s.keyRegister.toNat ≤ 15) (h : a ∈ (resume s).writes) :
    a.InRange := by
  unfold resume at h
  split at h
  · exact inRange_register (Nat.lt_succ_of_le hk) h
  · cases h

theorem inRange_of_mem_arithmetic {f : Fields} (h : a ∈ (arithmetic b s f).writes) :
    a.InRange := by
  unfold arithmetic at h
  split at h
  · rcases List.mem_append.1 h with h | h
    · exact inRange_register f.x.isLt h
    · exact inRange_register (by decide) h
  · cases h

theorem inRange_or_spills_of_mem_perform (hp : s.stack.pointer.toNat ≤ 16) {i : Instruction}
    (h : a ∈ (perform b s i).writes) : a.InRange ∨ Spills s i a := by
  cases i with
  | ret => exact .inl (inRange_of_mem_ret b hp h)
  | call target => exact .inl (inRange_of_mem_call h)
  | draw x y height => exact .inl (inRange_of_mem_draw b h)
  | storeDigits x => exact .inl (inRange_of_mem_storeDigits b h)
  | storeRegisters x => exact inRange_or_spills_of_mem_storeRegisters b h
  | loadRegisters x => exact .inl (inRange_of_mem_loadRegisters b h)
  | addIndex x => exact .inl (inRange_of_mem_addIndex b h)
  | waitKey x => exact .inl (inRange_of_mem_waitKey h)
  | setByte x | addByte x | random x | getDelay x =>
    exact .inl (inRange_register x.isLt h)
  -- the others write to no array
  | _ => cases h

/-! ## Ticks -/

/-- A lane of `FX55` behind its last register, in the coming tick. -/
def Dropped (s : Machine) (a : Write) : Prop :=
  ∃ (w : UInt16) (lane : Nat), s.nextWord? = some w ∧
    w.toNat / 0x1000 = 0xF ∧ w.toNat % 0x100 = 0x55 ∧
    w.toNat / 0x100 % 0x10 < lane ∧ lane < 16 ∧ a = .byte (s.index.toNat + lane)

theorem inRange_or_spills_of_mem_execute (hp : s.stack.pointer.toNat ≤ 16) {w : UInt16}
    (h : a ∈ (execute b s w).writes) : a.InRange ∨ Spills s (.ofWord w.toNat) a := by
  unfold execute at h
  dsimp only at h
  split at h
  · exact .inl (inRange_of_mem_arithmetic b h)
  · exact inRange_or_spills_of_mem_perform b hp h

/-- Only the last lanes of `FX55` are written out of range. -/
theorem inRange_or_dropped_of_mem_tick (hs : s.Sound) {keys : Keypad}
    (h : a ∈ (tick b s keys).writes) : a.InRange ∨ Dropped s a := by
  rw [tick_by_next] at h
  cases hn : s.next with
  | halted | overrun =>
    rw [hn] at h
    cases h
  | awaiting =>
    rw [hn] at h
    exact .inl (inRange_of_mem_resume (s := s.sample keys) hs.keyRegister_le h)
  | word w =>
    rw [hn] at h
    have hp : (s.sample keys).fetch.1.stack.pointer.toNat ≤ 16 := hs.stack.pointer_le
    refine (inRange_or_spills_of_mem_execute b hp h).imp_right ?_
    rintro ⟨x, lane, hi, hx, hlane, rfl⟩
    obtain ⟨hd, hk, hdigit⟩ := (Instruction.ofWord_eq_iff w.toNat_lt).1 hi
    exact ⟨w, lane, Machine.nextWord?_eq_some_iff.2 hn, hd, hk, hdigit ▸ hx, hlane, rfl⟩

end Writes

end Loose

namespace Machine

/-- No tick of a reachable machine depends on what lies past the end of an array, and all its writes
are in range but for the last lanes of `FX55`, which are dropped. -/
theorem Reachable.tick_ignores_ends {s : Machine} (h : Reachable s) (b : Loose.Beyond)
    (keys : Keypad) : (Loose.tick b s keys).machine = s.tick keys ∧
      ∀ a ∈ (Loose.tick b s keys).writes, a.InRange ∨ Loose.Dropped s a :=
  ⟨Loose.tick_eq b s (.inl h.sound.stack.pointer_le) keys,
    fun _ ha => Loose.inRange_or_dropped_of_mem_tick b h.sound ha⟩

/-- `LD [I], V0` at the last byte of memory. -/
theorem tick_ignores_ends_lastByte :
    let b : Loose.Beyond := ⟨fun _ => 0xFF, fun _ => 0xFFFF, fun _ => true, fun _ _ => (0xFF, true)⟩
    let s := ((fresh (.ofSeed 0) false).loadOrKeep [0xAF, 0xFF, 0xF0, 0x55]).run [Keypad.released]
    let o := Loose.tick b s Keypad.released
    Loose.Write.byte 4110 ∈ o.writes ∧ o.machine = s.tick Keypad.released ∧
      ∀ a ∈ o.writes, a.InRange ∨ Loose.Dropped s a := by
  intro b s o
  have h : Reachable s := .run (.load _ (.fresh _ _)) _
  have hlast : Loose.Write.byte 4110 ∈ o.writes := by decide +kernel
  exact ⟨hlast, h.tick_ignores_ends b Keypad.released⟩

end Machine

end Chip8
