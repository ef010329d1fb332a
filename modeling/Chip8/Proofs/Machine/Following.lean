/-
Where a machine goes on after a word, in whole numbers. `following` looks at the machine before the
tick and names the next address by the digits of the word: the target of a jump or a call, the return
address on top of the stack, or the second or fourth address from the word on. A tick moves the program
counter over the word first and lets the instruction add to it or replace it; it ends up at the same
address, and no sum on the way wraps.
-/
import Chip8.Proofs.Machine.Clock
import Chip8.Proofs.Machine.Frame

namespace Chip8.Machine

/-! ## The next address -/

/-- The key that the second digit of a word names, by the low digit of its register. -/
def firstKey (s : Machine) (w : Nat) : Fin 16 := ⟨(s.first w).toNat % 16, Nat.mod_lt _ (by decide)⟩

/-- The word is a skip whose condition holds with the given keys down. -/
def Skips (s : Machine) (keys : Keypad) (w : Nat) : Prop :=
  w / 0x1000 = 0x3 ∧ (s.first w).toNat = w % 0x100 ∨
  w / 0x1000 = 0x4 ∧ (s.first w).toNat ≠ w % 0x100 ∨
  w / 0x1000 = 0x5 ∧ s.first w = s.second w ∨
  w / 0x1000 = 0x9 ∧ s.first w ≠ s.second w ∨
  w / 0x1000 = 0xE ∧ w % 0x100 = 0x9E ∧ keys.isDown (s.firstKey w) = true ∨
  w / 0x1000 = 0xE ∧ w % 0x100 = 0xA1 ∧ keys.isDown (s.firstKey w) = false

instance (s : Machine) (keys : Keypad) (w : Nat) : Decidable (s.Skips keys w) :=
  inferInstanceAs (Decidable (_ ∨ _ ∨ _ ∨ _ ∨ _ ∨ _))

/-- The address at which the machine goes on after a word at its program counter. -/
def following (s : Machine) (keys : Keypad) (w : Nat) : Nat :=
  if w / 0x1000 = 0x1 ∨ w / 0x1000 = 0x2 then w % 0x1000
  else if w / 0x1000 = 0xB then w % 0x1000 + (s.register 0).toNat
  else if w = 0x00EE then (s.stack.read (s.stack.pointer.toNat - 1)).toNat
  else if s.Skips keys w then s.pc.toNat + 4
  else s.pc.toNat + 2

section Following

variable {s : Machine} {keys : Keypad} {w : Nat}

theorem firstKey_eq {x : Fin 16} (h : x.val = w / 0x100 % 0x10) :
    keys.isDown (s.firstKey w) = (s.sample keys).fetch.1.keyDown x := by
  simp only [firstKey, first_eq h]
  rfl

theorem register_fetch (x : Fin 16) : (s.sample keys).fetch.1.register x = s.register x := rfl

theorem Skips.branches (h : s.Skips keys w) : Branches w := by
  rcases h with ⟨hd, -⟩ | ⟨hd, -⟩ | ⟨hd, -⟩ | ⟨hd, -⟩ | ⟨hd, hk, -⟩ | ⟨hd, hk, -⟩ <;>
    simp [Branches, *]

theorem following_of_not_branches (h : ¬ Branches w) : s.following keys w = s.pc.toNat + 2 := by
  have hjump : ¬ (w / 0x1000 = 0x1 ∨ w / 0x1000 = 0x2) := by
    rintro (hd | hd) <;> exact h (by simp [Branches, hd])
  have hoffset : ¬ w / 0x1000 = 0xB := fun hd => h (by simp [Branches, hd])
  have hret : ¬ w = 0x00EE := fun hd => h (by simp [Branches, hd])
  rw [following, if_neg hjump, if_neg hoffset, if_neg hret, if_neg fun hs => h hs.branches]

theorem following_of_skip (hd : w / 0x1000 = 0x3 ∨ w / 0x1000 = 0x4 ∨ w / 0x1000 = 0x5 ∨
    w / 0x1000 = 0x9 ∨ w / 0x1000 = 0xE) :
    s.following keys w = if s.Skips keys w then s.pc.toNat + 4 else s.pc.toNat + 2 := by
  have hret : w ≠ 0x00EE := by omega
  rcases hd with hd | hd | hd | hd | hd <;> simp [following, hd, hret]

/-! ## The program counter -/

theorem pc_execute_of_not_branches (hw : w < 65536) (ho : s.obstacle? (.ofWord w) = none)
    (h : ¬ Branches w) : (s.execute (.ofWord w)).pc = s.pc := by
  rcases (frame_of_clear hw ho).pc with heq | hb | ⟨hs, -⟩
  · exact heq
  · exact absurd hb h
  · obtain ⟨f, hf⟩ := (stops_iff hw).1 hs
    rw [ho] at hf
    cases hf

theorem toNat_pc_fetch (hm : s.pc.toNat + 2 ≤ 4096) :
    (s.sample keys).fetch.1.pc.toNat = s.pc.toNat + 2 :=
  toNat_add_two (a := s.pc) (by omega)

/-- A skip goes two addresses further if its condition is that of the word. -/
theorem toNat_pc_skipIf {c : Bool} (hm : s.pc.toNat + 2 ≤ 4096)
    (hd : w / 0x1000 = 0x3 ∨ w / 0x1000 = 0x4 ∨ w / 0x1000 = 0x5 ∨ w / 0x1000 = 0x9 ∨
      w / 0x1000 = 0xE) (hc : c = true ↔ s.Skips keys w) :
    ((s.sample keys).fetch.1.skipIf c).pc.toNat = s.following keys w := by
  have hpc : (s.sample keys).fetch.1.pc.toNat = s.pc.toNat + 2 := toNat_pc_fetch hm
  rw [following_of_skip hd]
  by_cases hskip : s.Skips keys w
  · rw [skipIf, if_pos (hc.2 hskip), if_pos hskip, toNat_add_two (by omega), hpc]
  · rw [skipIf, if_neg fun h => hskip (hc.1 h), if_neg hskip, hpc]

/-- The address that a return takes is that below the pointer. -/
theorem pop_eq_read {c : CallStack} (h : c.isEmpty = false) :
    c.pop.2 = c.read (c.pointer.toNat - 1) := by
  rw [← CallStack.pointer_pop h]
  rfl

/-- Where an instruction leaves the program counter, by the digits of its word. -/
theorem toNat_pc_execute (hw : w < 65536) (hm : s.pc.toNat + 2 ≤ 4096)
    (ho : (s.sample keys).fetch.1.obstacle? (.ofWord w) = none) :
    ((s.sample keys).fetch.1.execute (.ofWord w)).pc.toNat = s.following keys w := by
  have hs := Instruction.stands_ofWord hw
  have hstraight (hb : ¬ Branches w) :
      ((s.sample keys).fetch.1.execute (.ofWord w)).pc.toNat = s.following keys w := by
    rw [pc_execute_of_not_branches hw ho hb, toNat_pc_fetch hm, following_of_not_branches hb]
  generalize Instruction.ofWord w = i at hs ho hstraight ⊢
  cases i with
  | jump a =>
    obtain ⟨hd, ha⟩ := hs
    rw [following, if_pos (.inl hd), ← ha]
    exact (UInt16.toNat_ofNat').trans (Nat.mod_eq_of_lt (by omega))
  | call a =>
    obtain ⟨hd, ha⟩ := hs
    have hf : (s.sample keys).fetch.1.stack.isFull = false := by simpa [obstacle?] using ho
    rw [execute_call hf, following, if_pos (.inr hd), ← ha]
    exact (UInt16.toNat_ofNat').trans (Nat.mod_eq_of_lt (by omega))
  | jumpOffset a =>
    obtain ⟨hd, ha⟩ := hs
    -- the sum is at most `0xFFF + 0xFF`
    have hv := ((s.sample keys).fetch.1.register 0).toNat_lt
    rw [following, if_neg (by omega), if_pos hd, ← ha]
    exact (UInt16.toNat_ofNat').trans (Nat.mod_eq_of_lt (by omega))
  | ret =>
    obtain rfl : w = 0x00EE := hs
    have he : (s.sample keys).fetch.1.stack.isEmpty = false := by simpa [obstacle?] using ho
    rw [execute_ret he]
    exact congrArg UInt16.toNat (pop_eq_read he)
  | skipEqualByte x k | skipUnequalByte x k =>
    obtain ⟨hd, hx, hk⟩ := hs
    refine toNat_pc_skipIf hm (by simp [hd]) ?_
    simp [Skips, hd, first_eq hx, ← hk, UInt8.toNat_inj, register_fetch]
  | skipEqual x y | skipUnequal x y =>
    obtain ⟨hd, hx, hy⟩ := hs
    refine toNat_pc_skipIf hm (by simp [hd]) ?_
    simp [Skips, hd, first_eq hx, second_eq hy, register_fetch]
  | skipDown x | skipUp x =>
    obtain ⟨hd, hk, hx⟩ := hs
    refine toNat_pc_skipIf hm (by simp [hd]) ?_
    simp [Skips, hd, hk, firstKey_eq hx]
  | clear =>
    obtain rfl : w = 0x00E0 := hs
    exact hstraight (by simp [Branches])
  | unknown v =>
    obtain ⟨-, hu⟩ := hs
    have hret : w ≠ 0x00EE := by
      unfold Instruction.Undefined at hu
      omega
    rcases hu with ⟨hd, -⟩ | ⟨hd, -⟩ | ⟨hd, hk⟩ | ⟨hd, -⟩ <;>
      exact hstraight (by simp [Branches, *])
  | setByte | addByte | alu | shiftRight | shiftLeft | setIndex | random | draw | getDelay | waitKey
  | setDelay | setSound | addIndex | glyph | storeDigits | storeRegisters | loadRegisters =>
    have hret : w ≠ 0x00EE := by
      have hd := hs.1
      omega
    exact hstraight (by simp [Branches, hs.1, hret])

/-- A tick that does not halt the machine leads from a word to the address that follows it. -/
theorem pc_tick_eq_following (hf : s.fault = 0) (ha : s.awaiting = false)
    (hm : s.pc.toNat + 2 ≤ 4096) (hr : (s.tick keys).fault = 0) :
    (s.tick keys).pc.toNat = s.following keys s.here := by
  have hn : s.next = .word (s.memory.word s.pc) := next_eq_word_iff.2 ⟨hf, ha, hm, rfl⟩
  have hw : (s.memory.word s.pc).toNat = s.here := Memory.toNat_word _ hm
  rw [tick_of_word keys hn, countDownIfRunning_fault, hw] at hr
  rw [tick_of_word keys hn, countDownIfRunning_pc, hw]
  exact toNat_pc_execute (hw ▸ UInt16.toNat_lt _) hm (obstacle?_eq_none_of_fault hr)

end Following

/-- A skip in the last word of memory, by a key that is down in this very tick; the register that
names the key has a high digit. -/
theorem pc_tick_eq_following_lastWord :
    let s := { fresh (.ofSeed 0) false with
      memory := Memory.fresh.store 0xFFE [0xE0, 0x9E]
      registers := Vector.replicate 16 0x15
      pc := 0xFFE }
    let keys := Keypad.ofKeys [5]
    s.fault = 0 ∧ s.awaiting = false ∧ s.pc.toNat + 2 ≤ 4096 ∧ (s.tick keys).fault = 0 ∧
      s.here = 0xE09E ∧ (s.tick keys).pc.toNat = 0x1002 := by
  intro s keys
  have hs : s.fault = 0 ∧ s.awaiting = false ∧ s.pc.toNat + 2 ≤ 4096 ∧ (s.tick keys).fault = 0 ∧
      s.here = 0xE09E ∧ s.following keys s.here = 0x1002 := by
    decide +kernel
  obtain ⟨hf, ha, hm, hr, hw, hnext⟩ := hs
  exact ⟨hf, ha, hm, hr, hw, (pc_tick_eq_following hf ha hm hr).trans hnext⟩

end Chip8.Machine
