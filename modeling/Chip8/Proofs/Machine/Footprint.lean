/-
The bytes of memory that a tick reads and writes. Besides its word, a tick reads the rows of a
sprite (`DXYN`) or the bytes that it loads (`FX65`), and it writes the digits of a register (`FX33`)
or the registers that it stores (`FX55`); all of them lie behind the index register. So two machines
that differ in memory only stay equal but for memory over a tick, if they agree on the few bytes
that it reads, and each of their bytes is then written alike or left alone.
-/
import Chip8.Proofs.Machine.Loose
import Chip8.Proofs.Machine.Stream
import Chip8.Proofs.Machine.Wait

namespace Chip8

namespace Memory

theorem slice_congr {m m' : Memory} {start n : Nat}
    (h : ∀ a, start ≤ a → a < start + n → m.read a = m'.read a) :
    m.slice start n = m'.slice start n := by
  refine List.map_congr_left fun i hi => h _ (Nat.le_add_right _ _) ?_
  exact Nat.add_lt_add_left (List.mem_range.1 hi) _

/-- Storing the same bytes in two memories: a byte is the same in both, or in each the one from
before. -/
theorem store_alike (m m' : Memory) (start : Nat) (bs : List UInt8) {a : Nat} (ha : a < 4096) :
    (m'.store start bs)[a] = (m.store start bs)[a] ∨
      (m.store start bs)[a] = m[a] ∧ (m'.store start bs)[a] = m'[a] := by
  rw [getElem_store, getElem_store]
  split
  · cases bs[a - start]? with
    | none => exact .inr ⟨rfl, rfl⟩
    | some b => exact .inl rfl
  · exact .inr ⟨rfl, rfl⟩

end Memory

namespace Machine

/-! ## Instructions that use memory -/

section Equations

variable {s : Machine} {x y n : Fin 16}

theorem execute_storeDigits (h : Memory.Fits s.index.toNat 3) : s.execute (.storeDigits x) =
    { s with memory := s.memory.store s.index.toNat (decimalDigits (s.register x)) } :=
  if_pos h

theorem execute_storeRegisters (h : Memory.Fits s.index.toNat (x + 1)) :
    s.execute (.storeRegisters x) =
      { s with memory := s.memory.store s.index.toNat (s.registers.toList.take (x + 1)) } :=
  if_pos h

theorem execute_loadRegisters (h : Memory.Fits s.index.toNat (x + 1)) :
    s.execute (.loadRegisters x) = { s with
      registers := Vector.ofFn fun r : Fin 16 =>
        if r ≤ x then s.memory.read (s.index.toNat + r) else s.register r } :=
  if_pos h

theorem execute_draw (h : n = 0 ∨ Memory.Fits s.index.toNat n) : s.execute (.draw x y n) =
    let mask := Screen.place (s.memory.slice s.index.toNat n) (s.register x).toNat
      (s.register y).toNat
    { s.setRegister flagRegister (flagByte (s.screen.collides mask)) with
      screen := s.screen.flip mask
      redraw := true } :=
  if_pos h

end Equations

/-- The bytes that an instruction puts into memory, from the index register on. -/
def stored (s : Machine) : Instruction → List UInt8
  | .storeDigits x => decimalDigits (s.register x)
  | .storeRegisters x => s.registers.toList.take (x + 1)
  | _ => []

/-- An instruction reads the byte at an address: one of its sprite, or one that it loads. -/
def Looks (s : Machine) (a : Nat) : Instruction → Prop
  | .draw _ _ n => Memory.Fits s.index.toNat n ∧ s.index.toNat ≤ a ∧ a < s.index.toNat + n
  | .loadRegisters x =>
    Memory.Fits s.index.toNat (x + 1) ∧ s.index.toNat ≤ a ∧ a ≤ s.index.toNat + x
  | _ => False

/-! ## Machines that differ in memory -/

/-- The machine with another memory. -/
def withMemory (s : Machine) (m : Memory) : Machine := { s with memory := m }

section Instructions

variable {s : Machine} {i : Instruction} {m : Memory}

theorem skipIf_withMemory (s : Machine) (c : Bool) (m : Memory) :
    (s.withMemory m).skipIf c = (s.skipIf c).withMemory m := by
  cases c <;> rfl

theorem countDownIfRunning_withMemory (s : Machine) (m : Memory) :
    (s.withMemory m).countDownIfRunning = s.countDownIfRunning.withMemory m := by
  rw [countDownIfRunning, countDownIfRunning, apply_ite fun t : Machine => t.withMemory m]
  rfl

theorem obstacle?_withMemory (s : Machine) (i : Instruction) (m : Memory) :
    (s.withMemory m).obstacle? i = s.obstacle? i := by
  cases i <;> rfl

/-- An instruction does the same to a machine with another memory, if it reads the same there, and
puts the same bytes into that memory. -/
theorem execute_withMemory (ho : s.obstacle? i = none)
    (h : ∀ a, s.Looks a i → m.read a = s.memory.read a) :
    (s.withMemory m).execute i =
      (s.execute i).withMemory (m.store s.index.toNat (s.stored i)) := by
  have hover := not_overruns_of_clear ho
  cases i with
  | draw x y n =>
    have hfit := (not_overruns_draw ..).1 hover
    have hslice : m.slice s.index.toNat n = s.memory.slice s.index.toNat n := by
      refine Memory.slice_congr fun a hlo hhi => h a ⟨hfit.resolve_left ?_, hlo, hhi⟩
      rintro rfl
      exact absurd hhi (Nat.not_lt.2 hlo)
    rw [execute_draw (s := s) hfit, execute_draw (s := s.withMemory m) hfit]
    simp only [withMemory, hslice]
    rfl
  | loadRegisters x =>
    have hfit := (not_overruns_loadRegisters ..).1 hover
    have hbyte (r : Fin 16) (hr : r ≤ x) :
        m.read (s.index.toNat + r) = s.memory.read (s.index.toNat + r) :=
      h _ ⟨hfit, Nat.le_add_right _ _, Nat.add_le_add_left hr _⟩
    rw [execute_loadRegisters (s := s) hfit, execute_loadRegisters (s := s.withMemory m) hfit]
    refine congrArg (fun v => { s with memory := m, registers := Vector.ofFn v }) (funext fun r => ?_)
    split
    · next hr => exact hbyte r hr
    · rfl
  | storeDigits x =>
    have hfit := (not_overruns_storeDigits ..).1 hover
    rw [execute_storeDigits (s := s) hfit, execute_storeDigits (s := s.withMemory m) hfit]
    rfl
  | storeRegisters x =>
    have hfit := (not_overruns_storeRegisters ..).1 hover
    rw [execute_storeRegisters (s := s) hfit, execute_storeRegisters (s := s.withMemory m) hfit]
    rfl
  | alu op x y => cases op <;> rfl
  | skipEqualByte | skipUnequalByte | skipEqual | skipUnequal | skipDown | skipUp =>
    exact skipIf_withMemory s _ m
  | waitKey x =>
    rw [execute, execute]
    cases hl : s.keypad.lowest? with
    | none =>
      rw [waitKey_of_none (s := s) hl, waitKey_of_none (s := s.withMemory m) hl]
      rfl
    | some k =>
      rw [waitKey_of_lowest (s := s) hl, waitKey_of_lowest (s := s.withMemory m) hl]
      rfl
  -- these choose between two machines by what is not memory
  | ret | call | addIndex =>
    simp only [execute, Machine.ret, Machine.call, Machine.addIndex]
    rw [apply_ite fun t : Machine => t.withMemory _]
    rfl
  | _ => rfl

/-- What an instruction makes of its own memory. -/
theorem memory_execute (ho : s.obstacle? i = none) :
    (s.execute i).memory = s.memory.store s.index.toNat (s.stored i) :=
  congrArg memory (execute_withMemory ho (m := s.memory) fun _ _ => rfl)

end Instructions

/-! ## Bytes that a tick reads and writes -/

/-- The coming tick may read the byte at an address: one of its word, one of the sprite of `DXYN`,
or one that `FX65` loads. A word that needs bytes past the end of memory reads none of them. -/
def ReadsByte (s : Machine) (a : Nat) : Prop :=
  a = s.pc.toNat ∨ a = s.pc.toNat + 1 ∨
  s.here / 0x1000 = 0xD ∧ s.index.toNat + s.here % 0x10 ≤ 4096 ∧
    s.index.toNat ≤ a ∧ a < s.index.toNat + s.here % 0x10 ∨
  s.here / 0x1000 = 0xF ∧ s.here % 0x100 = 0x65 ∧
    s.index.toNat + s.here / 0x100 % 0x10 + 1 ≤ 4096 ∧
    s.index.toNat ≤ a ∧ a ≤ s.index.toNat + s.here / 0x100 % 0x10

/-- The coming tick writes the byte at an address: `FX33` one of three digits, or `FX55` one of the
registers up to `VX`. -/
def WritesByte (s : Machine) (a : Nat) : Prop :=
  ∃ w, s.Executes w ∧ w / 0x1000 = 0xF ∧ s.index.toNat ≤ a ∧
    (w % 0x100 = 0x33 ∧ a < s.index.toNat + 3 ∨
      w % 0x100 = 0x55 ∧ a ≤ s.index.toNat + w / 0x100 % 0x10)

instance (s : Machine) (a : Nat) : Decidable (s.ReadsByte a) :=
  inferInstanceAs (Decidable (_ ∨ _ ∨ _ ∨ _))

instance (s : Machine) (a : Nat) : Decidable (s.WritesByte a) :=
  inferInstanceAs (Decidable (∃ w, s.Executes w ∧ w / 0x1000 = 0xF ∧ s.index.toNat ≤ a ∧
    (w % 0x100 = 0x33 ∧ a < s.index.toNat + 3 ∨
      w % 0x100 = 0x55 ∧ a ≤ s.index.toNat + w / 0x100 % 0x10)))

section Tick

variable {s : Machine} {w : UInt16} {a : Nat} {m : Memory}

theorem readsByte_of_looks (hn : s.next = .word w) (h : s.Looks a (.ofWord w.toNat)) :
    s.ReadsByte a := by
  have hhere : s.here = w.toNat := (executes_iff.1 (executes_of_next hn)).2.2.2
  have hs := Instruction.stands_ofWord w.toNat_lt
  rw [← hhere] at hs h
  generalize Instruction.ofWord s.here = i at hs h
  cases i with
  | draw x y n =>
    obtain ⟨hd, -, -, hheight⟩ := hs
    rw [Looks, hheight] at h
    exact .inr (.inr (.inl ⟨hd, h⟩))
  | loadRegisters x =>
    obtain ⟨hd, hk, hx⟩ := hs
    rw [Looks, hx] at h
    exact .inr (.inr (.inr ⟨hd, hk, h⟩))
  | _ => exact absurd h id

theorem ReadsByte.lt (h : s.ReadsByte a) (hm : s.pc.toNat + 2 ≤ 4096) : a < 4096 := by
  rcases h with rfl | rfl | ⟨-, hfit, -, hhi⟩ | ⟨-, -, hfit, -, hhi⟩ <;> omega

theorem writesByte_of_stored (hn : s.next = .word w) (hlo : s.index.toNat ≤ a)
    (hhi : a < s.index.toNat + (s.stored (.ofWord w.toNat)).length) : s.WritesByte a := by
  have hs := Instruction.stands_ofWord w.toNat_lt
  refine ⟨w.toNat, executes_of_next hn, ?_⟩
  generalize Instruction.ofWord w.toNat = i at hs hhi
  cases i with
  | storeDigits x =>
    obtain ⟨hd, hk, -⟩ := hs
    exact ⟨hd, hlo, .inl ⟨hk, hhi⟩⟩
  | storeRegisters x =>
    obtain ⟨hd, hk, hx⟩ := hs
    have hlen : (s.stored (.storeRegisters x)).length ≤ x + 1 := List.length_take_le ..
    exact ⟨hd, hlo, .inr ⟨hk, by omega⟩⟩
  | _ => exact absurd (Nat.lt_of_le_of_lt hlo hhi) (Nat.lt_irrefl _)

theorem stored_fetch (s : Machine) (keys : Keypad) (i : Instruction) :
    (s.sample keys).fetch.1.stored i = s.stored i := by
  cases i <;> rfl

theorem looks_fetch (s : Machine) (keys : Keypad) (i : Instruction) (a : Nat) :
    (s.sample keys).fetch.1.Looks a i ↔ s.Looks a i := by
  cases i <;> rfl

/-- A tick leaves memory alone, or it executes a word and stores its bytes. -/
theorem memory_tick (s : Machine) (keys : Keypad) : (s.tick keys).memory = s.memory ∨
    ∃ w, s.next = .word w ∧
      (s.tick keys).memory = s.memory.store s.index.toNat (s.stored (.ofWord w.toNat)) := by
  rcases byInstructions_memory.tick s keys with hsame | ⟨w, hn, hexecute⟩
  · exact .inl hsame
  · rw [hexecute]
    cases ho : (s.sample keys).fetch.1.obstacle? (.ofWord w.toNat) with
    | none =>
      rw [memory_execute ho, stored_fetch]
      exact .inr ⟨w, hn, rfl⟩
    | some f =>
      rw [execute_of_obstacle ho]
      exact .inl rfl

/-- A byte that a tick does not write stays. -/
theorem getElem_tick_of_not_writes (ha : a < 4096) (h : ¬ s.WritesByte a) (keys : Keypad) :
    (s.tick keys).memory[a] = s.memory[a] := by
  rcases memory_tick s keys with hsame | ⟨w, hn, hstore⟩
  · rw [hsame]
  · rw [hstore, Memory.getElem_store]
    split
    · next hlo =>
      have hlen : (s.stored (.ofWord w.toNat)).length ≤ a - s.index.toNat :=
        Nat.not_lt.1 fun hlt => h (writesByte_of_stored hn hlo (by omega))
      rw [List.getElem?_eq_none hlen, Option.getD_none]
    · rfl

theorem getElem_run_of_not_writes (ha : a < 4096) {samples : List Keypad}
    (h : ∀ n < samples.length, ¬ (s.run (samples.take n)).WritesByte a) :
    (s.run samples).memory[a] = s.memory[a] := by
  induction samples generalizing s with
  | nil => rfl
  | cons k ks ih =>
    have hk := getElem_tick_of_not_writes ha (h 0 (Nat.zero_lt_succ _)) k
    have hks := ih fun n hn => h (n + 1) (Nat.succ_lt_succ hn)
    rw [run_cons, hks]
    exact hk

/-- A tick of a machine with another memory. -/
theorem tick_withMemory (hn : s.next = .word w) (hw : m.word s.pc = w)
    (h : ∀ a, s.ReadsByte a → m.read a = s.memory.read a) (keys : Keypad) :
    ∃ bs, (s.tick keys).memory = s.memory.store s.index.toNat bs ∧
      (s.withMemory m).tick keys = (s.tick keys).withMemory (m.store s.index.toNat bs) := by
  obtain ⟨hf, ha, hm, -⟩ := next_eq_word_iff.1 hn
  have hn' : (s.withMemory m).next = .word w := next_eq_word_iff.2 ⟨hf, ha, hm, hw⟩
  have hfetch : ((s.withMemory m).sample keys).fetch.1 = (s.sample keys).fetch.1.withMemory m := rfl
  rw [tick_of_word keys hn, tick_of_word keys hn', countDownIfRunning_memory, hfetch]
  cases ho : (s.sample keys).fetch.1.obstacle? (.ofWord w.toNat) with
  | none =>
    have hlooks : ∀ a, (s.sample keys).fetch.1.Looks a (.ofWord w.toNat) →
        m.read a = (s.sample keys).fetch.1.memory.read a :=
      fun a hl => h a (readsByte_of_looks hn ((looks_fetch ..).1 hl))
    refine ⟨_, memory_execute ho, ?_⟩
    rw [execute_withMemory ho hlooks, countDownIfRunning_withMemory]
    rfl
  | some f =>
    -- a stopped instruction has nothing for memory
    rw [execute_of_obstacle ho, execute_of_obstacle ((obstacle?_withMemory ..).trans ho)]
    exact ⟨[], rfl, countDownIfRunning_withMemory ((s.sample keys).fetch.1.haltBack f) m⟩

end Tick

/-! ## Ticks in step -/

/-- `s'` and `t'`, which came of `s` and `t`, are equal but for memory, and of each address they hold
the same byte, or each of them the byte that it came with. -/
structure InStep (s t s' t' : Machine) : Prop where
  rest : t' = { s' with memory := t'.memory }
  bytes : ∀ a (ha : a < 4096), t'.memory[a] = s'.memory[a] ∨
    s'.memory[a] = s.memory[a] ∧ t'.memory[a] = t.memory[a]

section Footprint

variable {s t : Machine}

/-- A tick depends on no byte of memory but those of its word, its sprite and the registers that it
loads. The same holds of a tick that gathers a byte for every pixel and for all sixteen registers,
whatever it is answered past the end of memory. -/
theorem tick_reads_only_footprint (hf : s.fault = 0) (ha : s.awaiting = false)
    (hm : s.pc.toNat + 2 ≤ 4096) (ht : t = { s with memory := t.memory })
    (h : ∀ a (ha : a < 4096), s.ReadsByte a → t.memory[a] = s.memory[a]) (keys : Keypad) :
    InStep s t (s.tick keys) (t.tick keys) ∧
      ∀ b c, Loose.PopsCell b s → Loose.PopsCell c t →
        InStep s t (Loose.tick b s keys).machine (Loose.tick c t keys).machine := by
  obtain ⟨m, rfl⟩ : ∃ m, t = s.withMemory m := ⟨_, ht⟩
  have hread : ∀ a, s.ReadsByte a → m.read a = s.memory.read a := by
    intro a hr
    have hlt := hr.lt hm
    rw [Memory.read_of_lt _ hlt, Memory.read_of_lt _ hlt]
    exact h a hlt hr
  have hword : m.word s.pc = s.memory.word s.pc := by
    have hlow : (s.pc + 1).toNat = s.pc.toNat + 1 := toNat_add_one (by omega)
    rw [Memory.word, Memory.word, hlow, hread _ (.inl rfl), hread _ (.inr (.inl rfl))]
  have hstep : InStep s (s.withMemory m) (s.tick keys) ((s.withMemory m).tick keys) := by
    obtain ⟨bs, hmemory, htick⟩ :=
      tick_withMemory (next_eq_word_iff.2 ⟨hf, ha, hm, rfl⟩) hword hread keys
    constructor
    · rw [htick]
      rfl
    · intro a ha
      rw [htick, hmemory]
      exact Memory.store_alike s.memory m _ bs ha
  refine ⟨hstep, fun b c hb hc => ?_⟩
  rw [Loose.tick_eq b s hb, Loose.tick_eq c _ hc]
  exact hstep

end Footprint

/-- A sprite of the last two rows of memory, over memories that differ right below it. -/
theorem tick_reads_only_footprint_lastRows :
    let s := { (fresh (.ofSeed 0) false).withProgram [0xD0, 0x12] with index := 0xFFE }
    let t := s.withMemory (s.memory.setIfInBounds 0xFFD 0xFF)
    t.memory.read 0xFFD ≠ s.memory.read 0xFFD ∧
      ∀ keys, InStep s t (s.tick keys) (t.tick keys) ∧
        ∀ b c, InStep s t (Loose.tick b s keys).machine (Loose.tick c t keys).machine := by
  intro s t
  have hs : s.fault = 0 ∧ s.awaiting = false ∧ s.pc.toNat + 2 ≤ 4096 ∧ ¬ s.ReadsByte 0xFFD ∧
      s.stack.pointer.toNat ≤ 16 ∧ t.memory.read 0xFFD ≠ s.memory.read 0xFFD := by
    decide +kernel
  obtain ⟨hf, ha, hm, hunread, hp, hdiffer⟩ := hs
  have hagree : ∀ a (ha : a < 4096), s.ReadsByte a → t.memory[a] = s.memory[a] := by
    intro a ha hr
    refine Vector.getElem_setIfInBounds_ne ha ?_
    rintro rfl
    exact hunread hr
  refine ⟨hdiffer, fun keys => ?_⟩
  obtain ⟨hstep, hloose⟩ := tick_reads_only_footprint hf ha hm (rfl : t = _) hagree keys
  exact ⟨hstep, fun b c => hloose b c (.inl hp) (.inl hp)⟩

end Machine

end Chip8
