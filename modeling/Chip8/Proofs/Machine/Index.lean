/-
The index register along a run. `FX1E` adds a register to it and stops at `0xFFFF`, `ANNN` and `FX29`
set it anew, and no other word touches it. So as long as it is not set anew it is what it was and all
that has been added, cut off at `0xFFFF` once for all; it never comes down. Once it is past the end
of memory, no byte behind it can be reached: every word that needs one fails.
-/
import Chip8.Proofs.Machine.Footprint
import Chip8.Proofs.Machine.Frame

namespace Chip8.Machine

/-! ## Ticks that use the index register -/

/-- The coming tick executes `ANNN` or `FX29`. -/
def SetsIndex (s : Machine) : Prop :=
  ∃ w, s.Executes w ∧ (w / 0x1000 = 0xA ∨ w / 0x1000 = 0xF ∧ w % 0x100 = 0x29)

/-- The coming tick executes a word that needs bytes from the index register on: `DXYN` with `N > 0`,
`FX33`, `FX55` or `FX65`. -/
def NeedsBytes (s : Machine) : Prop :=
  ∃ w, s.Executes w ∧ (w / 0x1000 = 0xD ∧ 0 < w % 0x10 ∨
    w / 0x1000 = 0xF ∧ (w % 0x100 = 0x33 ∨ w % 0x100 = 0x55 ∨ w % 0x100 = 0x65))

/-- What the coming tick adds to the index register: `VX` if it executes `FX1E`, else nothing. -/
def addend (s : Machine) : Nat :=
  match s.nextWord? with
  | some w => if w.toNat / 0x1000 = 0xF ∧ w.toNat % 0x100 = 0x1E then (s.first w.toNat).toNat else 0
  | none => 0

/-- What the ticks of a run add to the index register, each the register as it then stands. -/
def added (s : Machine) : List Keypad → Nat
  | [] => 0
  | k :: ks => s.addend + (s.tick k).added ks

instance (s : Machine) : Decidable s.SetsIndex :=
  inferInstanceAs (Decidable (∃ w, s.Executes w ∧
    (w / 0x1000 = 0xA ∨ w / 0x1000 = 0xF ∧ w % 0x100 = 0x29)))

instance (s : Machine) : Decidable s.NeedsBytes :=
  inferInstanceAs (Decidable (∃ w, s.Executes w ∧ (w / 0x1000 = 0xD ∧ 0 < w % 0x10 ∨
    w / 0x1000 = 0xF ∧ (w % 0x100 = 0x33 ∨ w % 0x100 = 0x55 ∨ w % 0x100 = 0x65))))

/-! ## Adding -/

section Adding

variable {s : Machine} {x : Fin 16}

theorem ofWord_addIndex_iff {w : Nat} (h : w < 65536) :
    Instruction.ofWord w = .addIndex x ↔ w = 0xF01E + 0x100 * x := by
  rw [Instruction.ofWord_eq_iff h, Instruction.Stands]
  omega

theorem toNat_index_addIndex (s : Machine) (x : Fin 16) :
    (s.addIndex x).index.toNat = min (s.index.toNat + (s.register x).toNat) 0xFFFF := by
  have hlt : min (s.index.toNat + (s.register x).toNat) 0xFFFF < 65536 := by omega
  unfold addIndex
  split <;> exact (UInt16.toNat_ofNat').trans (Nat.mod_eq_of_lt hlt)

/-- The flag looks at the new value of the index register. -/
theorem flag_addIndex (h : s.carryIndex = true) (x : Fin 16) :
    (s.addIndex x).register flagRegister =
      flagByte (decide (0xFFF < (s.addIndex x).index.toNat)) := by
  rw [toNat_index_addIndex, addIndex, if_pos h, register_setRegister, if_pos rfl]

theorem tick_of_addIndex (h : s.Executes (0xF01E + 0x100 * x)) (keys : Keypad) :
    s.tick keys = ((s.sample keys).fetch.1.addIndex x).countDownIfRunning := by
  obtain ⟨w, hw, hval⟩ := h.next
  rw [tick_of_word keys hw, (ofWord_addIndex_iff w.toNat_lt).2 hval, execute]

theorem addend_of_addIndex (h : s.Executes (0xF01E + 0x100 * x)) :
    s.addend = (s.register x).toNat := by
  obtain ⟨w, hw, hval⟩ := h.next
  have hword : w.toNat / 0x1000 = 0xF ∧ w.toNat % 0x100 = 0x1E := by omega
  simp only [addend, nextWord?_eq_some_iff.2 hw, if_pos hword]
  rw [first_eq (show x.val = w.toNat / 0x100 % 0x10 by omega)]

theorem addend_of_not_executes (h : ∀ x : Fin 16, ¬ s.Executes (0xF01E + 0x100 * x)) :
    s.addend = 0 := by
  unfold addend
  split
  · next w hw =>
    refine if_neg ?_
    rintro ⟨hd, hk⟩
    have hx : w.toNat / 0x100 % 0x10 < 16 := Nat.mod_lt _ (by decide)
    have hval : w.toNat = 0xF01E + 0x100 * (w.toNat / 0x100 % 0x10) := by omega
    exact h ⟨_, hx⟩ (hval ▸ executes_of_next (nextWord?_eq_some_iff.1 hw))
  · rfl

end Adding

/-! ## One tick -/

section Tick

variable {s : Machine} {w : Nat} {keys : Keypad}

/-- Words other than `ANNN`, `FX1E` and `FX29` leave the index register alone. -/
theorem index_execute (hw : w < 65536)
    (hset : ¬ (w / 0x1000 = 0xA ∨ w / 0x1000 = 0xF ∧ w % 0x100 = 0x29))
    (hadd : ∀ x : Fin 16, w ≠ 0xF01E + 0x100 * x) :
    (s.execute (.ofWord w)).index = s.index := by
  cases ho : s.obstacle? (.ofWord w) with
  | some f =>
    rw [execute_of_obstacle ho]
    rfl
  | none =>
    rcases (frame_of_clear hw ho).index with h | h | ⟨hd, hk | hk⟩
    · exact h
    · exact absurd (.inl h) hset
    · have hx : w / 0x100 % 0x10 < 16 := Nat.mod_lt _ (by decide)
      refine absurd ?_ (hadd ⟨w / 0x100 % 0x10, hx⟩)
      simp only
      omega
    · exact absurd (.inr ⟨hd, hk⟩) hset

theorem index_tick_of_not_adds (hset : ¬ s.SetsIndex)
    (hadd : ∀ x : Fin 16, ¬ s.Executes (0xF01E + 0x100 * x)) (keys : Keypad) :
    (s.tick keys).index = s.index := by
  rcases byInstructions_index.tick s keys with hsame | ⟨w, hn, hexecute⟩
  · exact hsame
  · have hx := executes_of_next hn
    rw [hexecute]
    refine index_execute w.toNat_lt (fun h => hset ⟨_, hx, h⟩) ?_
    rintro x heq
    exact hadd x (heq ▸ hx)

/-- A tick that does not set the index register adds to it, up to `0xFFFF`. -/
theorem index_tick (hset : ¬ s.SetsIndex) (keys : Keypad) :
    (s.tick keys).index.toNat = min (s.index.toNat + s.addend) 0xFFFF := by
  by_cases hadd : ∃ x : Fin 16, s.Executes (0xF01E + 0x100 * x)
  · obtain ⟨x, hx⟩ := hadd
    rw [tick_of_addIndex hx, countDownIfRunning_index, toNat_index_addIndex, addend_of_addIndex hx]
    rfl
  · rw [not_exists] at hadd
    have hlt := s.index.toNat_lt
    rw [index_tick_of_not_adds hset hadd, addend_of_not_executes hadd]
    omega

theorem carryIndex_tick (s : Machine) (keys : Keypad) : (s.tick keys).carryIndex = s.carryIndex := by
  rcases byInstructions_carryIndex.tick s keys with hsame | ⟨w, -, hexecute⟩
  · exact hsame
  · exact hexecute.trans (effect_execute ..).carryIndex_eq

/-- With `carryIndex`, `FX1E` says in `VF` whether the index register is past the address space. -/
theorem flag_tick_of_addIndex {x : Fin 16} (hc : s.carryIndex = true)
    (h : s.Executes (0xF01E + 0x100 * x)) (keys : Keypad) :
    (s.tick keys).register flagRegister = if 0xFFF < (s.tick keys).index.toNat then 1 else 0 := by
  have hflag := flag_addIndex (s := (s.sample keys).fetch.1) hc x
  rw [tick_of_addIndex h, countDownIfRunning_register, countDownIfRunning_index, hflag, flagByte]
  simp only [decide_eq_true_eq]

/-- Past the end of memory there is nothing to write to. -/
theorem memory_tick_of_past (h : 0xFFF < s.index.toNat) (keys : Keypad) :
    (s.tick keys).memory = s.memory := by
  ext a ha : 1
  refine getElem_tick_of_not_writes ha ?_ keys
  rintro ⟨w, -, -, hle, -⟩
  omega

/-- Past the end of memory every word that needs bytes fails. -/
theorem tick_of_needsBytes (h : 0xFFF < s.index.toNat) (hn : s.NeedsBytes) (keys : Keypad) :
    s.tick keys = { s with fault := 3, keypad := keys, redraw := false, beeping := false } := by
  obtain ⟨w, hx, hw⟩ := hn
  obtain ⟨hf, ha, hm, rfl⟩ := executes_iff.1 hx
  have hleaves : Leaves s.here s.index.toNat := by
    rcases hw with ⟨hd, hpos⟩ | ⟨hd, hk | hk⟩
    · exact .inl ⟨hd, hpos, by omega⟩
    · exact .inr (.inl ⟨hd, hk, by omega⟩)
    · exact .inr (.inr ⟨hd, hk, by omega⟩)
  exact tick_of_fails hf ha (f := .memoryBounds) (.inr ⟨hm, hleaves⟩) keys

end Tick

/-! ## Runs -/

section Run

variable {s : Machine} {samples : List Keypad}

/-- The sums of single ticks, each cut off, come to one sum that is cut off at the end. -/
theorem index_run (h : ∀ n < samples.length, ¬ (s.run (samples.take n)).SetsIndex) :
    (s.run samples).index.toNat = min (s.index.toNat + s.added samples) 0xFFFF := by
  induction samples generalizing s with
  | nil =>
    have hlt := s.index.toNat_lt
    show s.index.toNat = min (s.index.toNat + 0) 0xFFFF
    omega
  | cons k ks ih =>
    have hk := index_tick (show ¬ s.SetsIndex from h 0 (Nat.zero_lt_succ _)) k
    have hks := ih fun n hn => h (n + 1) (Nat.succ_lt_succ hn)
    rw [run_cons, hks, hk, added]
    omega

theorem index_run_mono (h : ∀ n < samples.length, ¬ (s.run (samples.take n)).SetsIndex) {m n : Nat}
    (hmn : m ≤ n) (hn : n ≤ samples.length) :
    (s.run (samples.take m)).index.toNat ≤ (s.run (samples.take n)).index.toNat := by
  induction hmn with
  | refl => exact Nat.le_refl _
  | @step n _ ih =>
    have htick := index_tick (h n hn) samples[n]
    have hlt := (s.run (samples.take n)).index.toNat_lt
    have hle := ih (Nat.le_of_succ_le hn)
    rw [Nat.succ_eq_add_one, s.run_take_succ hn, htick]
    omega

theorem carryIndex_run (s : Machine) (samples : List Keypad) :
    (s.run samples).carryIndex = s.carryIndex := by
  induction samples generalizing s with
  | nil => rfl
  | cons k ks ih => exact (ih (s.tick k)).trans (carryIndex_tick s k)

theorem memory_run_of_past (hpast : 0xFFF < s.index.toNat)
    (h : ∀ n < samples.length, ¬ (s.run (samples.take n)).SetsIndex) {n : Nat}
    (hn : n ≤ samples.length) : (s.run (samples.take n)).memory = s.memory := by
  induction n with
  | zero => rfl
  | succ n ih =>
    have hle := index_run_mono h (Nat.zero_le n) (Nat.le_of_succ_le hn)
    rw [s.run_take_succ hn, memory_tick_of_past (Nat.lt_of_lt_of_le hpast hle),
      ih (Nat.le_of_succ_le hn)]

/-- Along a run that executes neither `ANNN` nor `FX29`, the index register ends at what it was and all
that `FX1E` has added, or at `0xFFFF`, and it never comes down; with `carryIndex`, `VF` says after
each `FX1E` whether it is past the address space. If it is past the end of memory to begin with, no
byte of memory changes, and every attempt to draw, to store or to load stops the machine with fault 3
and does nothing else. -/
theorem index_saturates (h : ∀ n < samples.length, ¬ (s.run (samples.take n)).SetsIndex) :
    (s.run samples).index.toNat = min (s.index.toNat + s.added samples) 0xFFFF ∧
    (∀ m n, m ≤ n → n ≤ samples.length →
      (s.run (samples.take m)).index.toNat ≤ (s.run (samples.take n)).index.toNat) ∧
    (s.carryIndex = true → ∀ n < samples.length, ∀ x : Fin 16,
      (s.run (samples.take n)).Executes (0xF01E + 0x100 * x) →
      (s.run (samples.take (n + 1))).register 0xF =
        if 0xFFF < (s.run (samples.take (n + 1))).index.toNat then 1 else 0) ∧
    (0xFFF < s.index.toNat →
      (∀ n ≤ samples.length, (s.run (samples.take n)).memory = s.memory) ∧
      ∀ n (hn : n < samples.length), (s.run (samples.take n)).NeedsBytes →
        s.run (samples.take (n + 1)) = { s.run (samples.take n) with
          fault := 3
          keypad := samples[n]
          redraw := false
          beeping := false }) := by
  refine ⟨index_run h, fun m n => index_run_mono h, fun hc n hn x hx => ?_, fun hpast => ⟨fun n =>
    memory_run_of_past hpast h, fun n hn hneeds => ?_⟩⟩
  · have hcarry := (carryIndex_run s (samples.take n)).trans hc
    rw [s.run_take_succ hn]
    exact flag_tick_of_addIndex hcarry hx _
  · have hle := index_run_mono h (Nat.zero_le n) (Nat.le_of_lt hn)
    rw [s.run_take_succ hn]
    exact tick_of_needsBytes (Nat.lt_of_lt_of_le hpast hle) hneeds _

/-- The flag register added to the index twice, the second time as the flag of the first; then a
sprite is to be drawn. -/
theorem index_saturates_flagTwice :
    let s := { (fresh (.ofSeed 0) true).withProgram [0xFF, 0x1E, 0xFF, 0x1E, 0xD0, 0x01] with
      registers := Vector.replicate 16 4
      index := 0xFFFB }
    let samples := List.replicate 3 Keypad.released
    s.added samples = 4 + 1 ∧ (s.run samples).index = 0xFFFF ∧
      (s.run (samples.take 2)).register 0xF = 1 ∧ (s.run samples).memory = s.memory ∧
      (s.run samples).fault = 3 := by
  intro s samples
  have hs : (∀ n < samples.length, ¬ (s.run (samples.take n)).SetsIndex) ∧
      s.added samples = 4 + 1 ∧ (s.run (samples.take 1)).Executes (0xF01E + 0x100 * (0xF : Fin 16)) ∧
      (s.run (samples.take 2)).NeedsBytes := by
    decide +kernel
  obtain ⟨hset, hadded, hadds, hneeds⟩ := hs
  obtain ⟨hsum, hmono, hflag, hpast⟩ := index_saturates hset
  obtain ⟨hmemory, hfault⟩ := hpast (by decide)
  refine ⟨hadded, ?_, ?_, hmemory 3 (Nat.le_refl 3), ?_⟩
  · rw [hadded] at hsum
    exact UInt16.toNat_inj.1 hsum
  · have hle := hmono 0 2 (by decide) (by decide)
    rw [hflag rfl 1 (by decide) 0xF hadds]
    exact if_pos (Nat.lt_of_lt_of_le (by decide) hle)
  · exact congrArg Machine.fault (hfault 2 (by decide) hneeds)

end Run

end Chip8.Machine
